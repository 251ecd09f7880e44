/-
ScriptOutline/Proofs/Rebinding.lean

Code that has been bound, bound once more.  Binding writes over what was there: the origins of
variables, the classes of types and the names of blocks come from the environment alone, and a
call that became a static one stays one.  So binding code in one environment and then in another
is binding it in the second one (`Part.bound_bound`), provided that the second time finds the
same declarations, for these make the environments of the parts further on.

It does: bound code has the parts that the code had, each one bound (`Part.flatMap_analysed_bound`).
Only a call that becomes a static one drops its receiver, and the receiver of a call that names
none is a variable, in which nothing is declared or wrong (`Part.Regular`).  Declarations, local
variables and faults follow by recursion on the code.

The main result is `CompiledModule.resolve_resolve`: the resolution of names, run on what an
earlier run left, changes nothing and answers the same fault.
-/
import ScriptOutline.Proofs.Analysis
import ScriptOutline.Proofs.TidyScript

namespace ScriptOutline

variable (k : ClassContext) (inStatic : Bool)

/-! ### Lists of parts -/

/-- A part, bound in an environment. -/
def Part.bound (env : Scope) : Part → Part
  | .expression e => .expression (e.bound k inStatic env)
  | .statement s => .statement (s.bound k inStatic env)
  | .catchClause c => .catchClause (c.bound k inStatic env)
  | .caseClause c => .caseClause (c.bound k inStatic env)

/-- Parts, each one bound after the declarations of those before it. -/
def boundParts (env : Scope) : List Part → List Part
  | [] => []
  | p :: rest => p.bound k inStatic env :: boundParts (env.declareAll p.declares) rest

theorem boundExpressions_parts (env : Scope) (es : List Expression) :
    (boundExpressions k inStatic env es).map Part.expression =
      boundParts k inStatic env (es.map .expression) := by
  induction es generalizing env with
  | nil => rfl
  | cons e es ih =>
    rw [boundExpressions, List.map_cons, ih, List.map_cons, boundParts, Part.bound]

theorem boundStatements_parts (env : Scope) (ss : List Statement) :
    (boundStatements k inStatic env ss).map Part.statement =
      boundParts k inStatic env (ss.map .statement) := by
  induction ss generalizing env with
  | nil => rfl
  | cons s ss ih =>
    rw [boundStatements, List.map_cons, ih, List.map_cons, boundParts, Part.bound]

theorem Part.declares_of_hasFrame {p : Part} (h : p.hasFrame = true) : p.declares = [] := by
  rw [Part.declares_eq, if_pos h]

theorem boundCatches_parts (env : Scope) (cs : List CatchClause) :
    (boundCatches k inStatic env cs).map Part.catchClause =
      boundParts k inStatic env (cs.map .catchClause) := by
  induction cs with
  | nil => rfl
  | cons c cs ih =>
    rw [boundCatches, List.map_cons, ih, List.map_cons, boundParts,
      Part.declares_of_hasFrame (p := .catchClause c) rfl, Scope.declareAll_nil, Part.bound]

theorem boundCases_parts (env : Scope) (cs : List CaseClause) :
    (boundCases k inStatic env cs).map Part.caseClause =
      boundParts k inStatic env (cs.map .caseClause) := by
  induction cs generalizing env with
  | nil => rfl
  | cons c cs ih =>
    rw [boundCases, List.map_cons, ih, List.map_cons, boundParts, Part.bound]

variable {γ : Type} {k inStatic}

/-- What is collected from parts, as long as binding does not change it. -/
theorem flatMap_boundParts {collect : Part → List γ} {env : Scope} {ps : List Part}
    (h : ∀ p ∈ ps, ∀ env, collect (p.bound k inStatic env) = collect p) :
    (boundParts k inStatic env ps).flatMap collect = ps.flatMap collect := by
  induction ps generalizing env with
  | nil => rfl
  | cons p ps ih =>
    obtain ⟨hp, hps⟩ := List.forall_mem_cons.mp h
    rw [boundParts, List.flatMap_cons, List.flatMap_cons, hp, ih hps]

/-! ### Parts of bound code -/

/-- The variable that the receiver of a call is when none is named. -/
theorem Expression.eq_variableRef_of_variableName? {e : Expression}
    (h : e.variableName?.isSome = true) :
    ∃ name declared origin span inferred,
      e = ⟨.variableRef name declared origin, span, inferred⟩ := by
  obtain ⟨node, span, inferred⟩ := e
  cases node
  case variableRef name declared origin => exact ⟨name, declared, origin, span, inferred, rfl⟩
  all_goals simp [variableName?] at h

/-- Parts of a list that are entered in the same way. -/
theorem flatMap_enclosed_boundParts {collect : Option Enclosure × Part → List γ}
    (x : Option Enclosure) {env : Scope} {ps : List Part}
    (h : ∀ y ∈ ps.map fun q => (x, q), ∀ env,
      collect (y.1, y.2.bound k inStatic env) = collect y) :
    ((boundParts k inStatic env ps).map fun q => (x, q)).flatMap collect =
      (ps.map fun q => (x, q)).flatMap collect := by
  rw [List.flatMap_map, List.flatMap_map]
  exact flatMap_boundParts fun q hq => h (x, q) (List.mem_map_of_mem hq)

theorem ExpressionNode.analysed_interpolation (fragments values : List Expression) :
    (interpolation fragments values).analysed =
      ((fragments.map Part.expression).map fun q => (none, q)) ++
        (values.map Part.expression).map fun q => (none, q) := by
  rw [analysed, List.map_append, List.map_map, List.map_map]
  rfl

section Analysed

variable {collect : Option Enclosure × Part → List γ} {span : Span}

theorem ExpressionNode.flatMap_analysed_bound {node : ExpressionNode} {inferred : Option String}
    (env : Scope) (hp : (Part.expression ⟨node, span, inferred⟩).Regular)
    (hvariable : ∀ e : Expression, e.variableName?.isSome = true →
      collect (none, .expression e) = [])
    (h : ∀ x ∈ node.analysed, ∀ env, collect (x.1, x.2.bound k inStatic env) = collect x) :
    (node.bound k inStatic env).analysed.flatMap collect = node.analysed.flatMap collect := by
  cases node
  case constant | classRef | variableRef | field | bytecode | empty => rfl
  case call object method arguments safe implicitReceiver =>
    simp only [analysed, children, List.map_cons, List.map_nil, List.forall_mem_cons,
      Part.bound] at h
    obtain ⟨hobject, harguments, -⟩ := h
    rcases bound_call_cases k inStatic env object method arguments safe implicitReceiver with
      ⟨rfl, owner, hcall⟩ | hcall
    · -- the receiver is dropped, and nothing is collected from a receiver that is not written
      have hnone := hvariable object hp.1
      simp [hcall, analysed, children, harguments, hnone]
    · simp [hcall, analysed, children, hobject, harguments]
  case sequence form items =>
    simp only [ExpressionNode.bound, analysed, children, boundExpressions_parts]
    exact flatMap_enclosed_boundParts none h
  case array elementType elements sizes =>
    simp only [analysed, children, List.map_append, List.forall_mem_append] at h
    simp only [ExpressionNode.bound, analysed, children, List.map_append, List.flatMap_append,
      boundExpressions_parts]
    rw [flatMap_enclosed_boundParts none h.1, flatMap_enclosed_boundParts none h.2]
  case interpolation fragments values =>
    simp only [analysed_interpolation, List.forall_mem_append] at h
    simp only [ExpressionNode.bound, analysed_interpolation, List.flatMap_append,
      boundExpressions_parts]
    rw [flatMap_enclosed_boundParts none h.1, flatMap_enclosed_boundParts none h.2]
  all_goals
    simp only [Part.bound, ExpressionNode.bound, analysed, children, List.map_cons, List.map_nil,
      List.flatMap_cons, List.flatMap_nil, List.forall_mem_cons] at h ⊢
    simp only [h]

theorem StatementNode.flatMap_analysed_bound {node : StatementNode} (env : Scope)
    (h : ∀ x ∈ node.analysed, ∀ env, collect (x.1, x.2.bound k inStatic env) = collect x) :
    (node.bound k inStatic env).analysed.flatMap collect = node.analysed.flatMap collect := by
  cases node
  case breakLoop | continueLoop | empty => rfl
  case block statements declared =>
    simp only [StatementNode.bound, analysed, children, boundStatements_parts]
    exact flatMap_enclosed_boundParts none h
  case tryCatch body catches finallyBlock =>
    simp only [analysed, children, List.map_append, List.map_cons, List.map_nil, List.cons_append,
      List.forall_mem_append, List.forall_mem_cons, Part.bound] at h
    obtain ⟨hbody, hcatches, hfinally, -⟩ := h
    simp only [StatementNode.bound, analysed, children, List.map_append, List.map_cons,
      List.map_nil, List.cons_append, List.flatMap_cons, List.flatMap_append, List.flatMap_nil,
      boundCatches_parts, hbody, hfinally]
    rw [flatMap_enclosed_boundParts none hcatches]
  case switch subject cases defaultBlock =>
    simp only [analysed, children, List.map_append, List.map_cons, List.map_nil, List.cons_append,
      List.forall_mem_append, List.forall_mem_cons, Part.bound] at h
    obtain ⟨hsubject, hcases, hdefault, -⟩ := h
    simp only [StatementNode.bound, analysed, children, List.map_append, List.map_cons,
      List.map_nil, List.cons_append, List.flatMap_cons, List.flatMap_append, List.flatMap_nil,
      boundCases_parts, hsubject, hdefault]
    rw [flatMap_enclosed_boundParts (some .switch) hcases]
  all_goals
    simp only [Part.bound, StatementNode.bound, analysed, children, List.map_cons, List.map_nil,
      List.flatMap_cons, List.flatMap_nil, List.forall_mem_cons] at h ⊢
    simp only [h]

/-- Bound code has the parts that the code had, each one bound; a receiver that is dropped is a
variable. -/
theorem Part.flatMap_analysed_bound (collect : Option Enclosure × Part → List γ) {p : Part}
    (env : Scope) (hp : p.Regular)
    (hvariable : ∀ e : Expression, e.variableName?.isSome = true →
      collect (none, .expression e) = [])
    (h : ∀ x ∈ p.analysed, ∀ env, collect (x.1, x.2.bound k inStatic env) = collect x) :
    (p.bound k inStatic env).analysed.flatMap collect = p.analysed.flatMap collect := by
  rcases p with ⟨node, span, inferred⟩ | ⟨node, span⟩ | ⟨binding, code, span⟩ |
    ⟨subject, code, span⟩
  · exact node.flatMap_analysed_bound env hp hvariable h
  · exact node.flatMap_analysed_bound env h
  · simp only [analysed, List.forall_mem_cons, Part.bound] at h
    simp only [Part.bound, CatchClause.bound, analysed, List.flatMap_cons, List.flatMap_nil, h]
  · simp only [analysed, List.forall_mem_cons, Part.bound] at h
    simp only [Part.bound, CaseClause.bound, analysed, List.flatMap_cons, List.flatMap_nil, h]

end Analysed

/-! ### Declarations, local variables and faults -/

theorem Expression.variableName?_boundDeclared (target : Expression) :
    (boundDeclared k target).variableName? = target.variableName? := by
  obtain ⟨node, span, inferred⟩ := target
  cases node <;> rfl

namespace Part

variable (env : Scope) (p : Part)

theorem hasFrame_bound : (p.bound k inStatic env).hasFrame = p.hasFrame := by
  rcases p with ⟨node, span, inferred⟩ | ⟨node, span⟩ | c | c
  · cases node
    case call =>
      exact ExpressionNode.bound_call_induction
        (P := fun node => (Part.expression ⟨node, span, inferred⟩).hasFrame = false)
        (fun _ _ _ _ _ => rfl) (fun _ _ _ => rfl) k inStatic env _ _ _ _ _
    all_goals rfl
  · cases node <;> rfl
  · rfl
  · rfl

theorem declared?_bound : (p.bound k inStatic env).declared? = p.declared? := by
  rcases p with ⟨node, span, inferred⟩ | ⟨node, span⟩ | c | c
  · cases node
    case call =>
      exact ExpressionNode.bound_call_induction
        (P := fun node => (Part.expression ⟨node, span, inferred⟩).declared? = none)
        (fun _ _ _ _ _ => rfl) (fun _ _ _ => rfl) k inStatic env _ _ _ _ _
    case declaration target value => exact Expression.variableName?_boundDeclared target
    all_goals rfl
  · rfl
  · rfl
  · rfl

theorem fault?_bound (declared : List String) (around : List Enclosure) :
    (p.bound k inStatic env).fault? declared around = p.fault? declared around := by
  rcases p with ⟨node, span, inferred⟩ | ⟨node, span⟩ | c | c
  · cases node
    case call =>
      exact ExpressionNode.bound_call_induction
        (P := fun node => (Part.expression ⟨node, span, inferred⟩).fault? declared around = none)
        (fun _ _ _ _ _ => rfl) (fun _ _ _ => rfl) k inStatic env _ _ _ _ _
    case construct target arguments special =>
      cases special with
      | none => rfl
      | some special => cases special <;> rfl
    all_goals rfl
  · cases node <;> rfl
  · rfl
  · rfl

end Part

/-- In a variable nothing is declared and nothing is wrong. -/
theorem Part.collect_variable {e : Expression} (h : e.variableName?.isSome = true) :
    (Part.expression e).declares = [] ∧ (Part.expression e).locals = [] ∧
      ∀ declared around, (Part.expression e).faults declared around = [] := by
  obtain ⟨name, declared, origin, span, inferred, rfl⟩ :=
    Expression.eq_variableRef_of_variableName? h
  refine ⟨?_, ?_, fun declared around => ?_⟩
  · rw [Part.declares_eq]
    rfl
  · rw [Part.locals_eq (by simp)]
    rfl
  · rw [Part.faults_eq]
    rfl

theorem Part.declares_bound (p : Part) (env : Scope) (h : p.Tidy) :
    (p.bound k inStatic env).declares = p.declares := by
  have hparts := Part.flatMap_analysed_bound (fun x => x.2.declares) env h.regular
    (fun e he => (Part.collect_variable he).1)
    fun x hx env => Part.declares_bound x.2 env (h.analysed hx)
  rw [Part.declares_eq, Part.declares_eq, hparts, p.hasFrame_bound, p.declared?_bound]
termination_by sizeOf p
decreasing_by exact Part.sizeOf_lt_of_mem_analysed hx

theorem Part.faults_bound (p : Part) (env : Scope) (h : p.Tidy) (declared : List String)
    (around : List Enclosure) :
    (p.bound k inStatic env).faults declared around = p.faults declared around := by
  have hparts := Part.flatMap_analysed_bound
    (fun x => x.2.faults declared (x.1.toList ++ around)) env h.regular
    (fun e he => (Part.collect_variable he).2.2 declared _)
    fun x hx env => Part.faults_bound x.2 env (h.analysed hx) declared _
  rw [Part.faults_eq, Part.faults_eq, hparts, p.fault?_bound]
termination_by sizeOf p
decreasing_by exact Part.sizeOf_lt_of_mem_analysed hx

theorem Part.locals_bound (p : Part) (env : Scope) (h : p.Tidy) :
    (p.bound k inStatic env).locals = p.locals := by
  have hlocals : ∀ x ∈ p.analysed, ∀ env, (x.2.bound k inStatic env).locals = x.2.locals :=
    fun x hx env => Part.locals_bound x.2 env (h.analysed hx)
  have hparts := Part.flatMap_analysed_bound (fun x => x.2.locals) env h.regular
    (fun e he => (Part.collect_variable he).2.1) hlocals
  -- the binding of a loop counts before its body, so a loop with one is a case by itself
  have hrest (hp : ∀ binding collection body span,
        p ≠ .statement ⟨.loop (some binding) collection body, span⟩)
      (hbound : ∀ binding collection body span,
        p.bound k inStatic env ≠ .statement ⟨.loop (some binding) collection body, span⟩) :
      (p.bound k inStatic env).locals = p.locals := by
    rw [Part.locals_eq hp, Part.locals_eq hbound, hparts, p.declared?_bound]
  rcases p with e | ⟨node, span⟩ | c | c
  · exact hrest (by simp) (by simp [Part.bound])
  · cases node
    case loop binding collection body =>
      cases binding with
      | none => exact hrest (by simp) (by simp [Part.bound, Statement.bound, StatementNode.bound])
      | some binding =>
        have hcollection := hlocals (none, .expression collection) (.head _)
        have hbody := hlocals (some .loopBody, .statement body) (.tail _ (.head _))
        simp only [Part.bound] at hcollection hbody
        simp only [Part.bound, Statement.bound, StatementNode.bound, Option.map_some,
          Part.locals_loop, hcollection, hbody, Binding.bound]
    all_goals exact hrest (by simp) (by simp [Part.bound, Statement.bound, StatementNode.bound])
  · exact hrest (by simp) (by simp [Part.bound])
  · exact hrest (by simp) (by simp [Part.bound])
termination_by sizeOf p
decreasing_by exact Part.sizeOf_lt_of_mem_analysed hx

/-! ### Binding twice -/

/-- Binding the part a second time finds the declarations of the first time, and the first time
leaves no trace. -/
structure Part.Rebinds (k : ClassContext) (inStatic : Bool) (p : Part) : Prop where
  declares : ∀ env, (p.bound k inStatic env).declares = p.declares
  bound : ∀ env env', (p.bound k inStatic env).bound k inStatic env' = p.bound k inStatic env'

namespace Part.Rebinds

theorem boundParts (env env' : Scope) {ps : List Part} (h : ∀ p ∈ ps, p.Rebinds k inStatic) :
    boundParts k inStatic env' (boundParts k inStatic env ps) =
      ScriptOutline.boundParts k inStatic env' ps := by
  induction ps generalizing env env' with
  | nil => rfl
  | cons p ps ih =>
    obtain ⟨hp, hps⟩ := List.forall_mem_cons.mp h
    simp only [ScriptOutline.boundParts, hp.declares, hp.bound, ih _ _ hps]

/-- Parts of one kind, which are bound one after the other. -/
theorem list {α : Type} {part : α → Part} (hpart : Function.Injective part)
    {bind : Scope → List α → List α}
    (hbind : ∀ env xs,
      (bind env xs).map part = ScriptOutline.boundParts k inStatic env (xs.map part))
    {xs : List α} (h : ∀ p ∈ xs.map part, p.Rebinds k inStatic) :
    (∀ env env', bind env' (bind env xs) = bind env' xs) ∧
      ∀ env, (bind env xs).flatMap (fun x => (part x).declares) =
        xs.flatMap fun x => (part x).declares := by
  constructor
  · intro env env'
    refine List.map_injective_iff.mpr hpart ?_
    simp only [hbind, Rebinds.boundParts _ _ h]
  · intro env
    rw [← List.flatMap_map, hbind, flatMap_boundParts, List.flatMap_map]
    exact fun p hp env => (h p hp).declares env

theorem expression {e : Expression} (h : Rebinds k inStatic (.expression e)) (env env' : Scope) :
    (e.bound k inStatic env).bound k inStatic env' = e.bound k inStatic env' :=
  Part.expression.inj (h.bound env env')

theorem statement {s : Statement} (h : Rebinds k inStatic (.statement s)) (env env' : Scope) :
    (s.bound k inStatic env).bound k inStatic env' = s.bound k inStatic env' :=
  Part.statement.inj (h.bound env env')

theorem expression_iff {e : Expression} :
    Rebinds k inStatic (.expression e) ↔
      (∀ env, (Part.expression (e.bound k inStatic env)).declares =
          (Part.expression e).declares) ∧
        ∀ env env', (e.bound k inStatic env).bound k inStatic env' = e.bound k inStatic env' :=
  ⟨fun h => ⟨h.declares, h.expression⟩,
    fun h => ⟨h.1, fun env env' => congrArg Part.expression (h.2 env env')⟩⟩

theorem statement_iff {s : Statement} :
    Rebinds k inStatic (.statement s) ↔
      (∀ env, (Part.statement (s.bound k inStatic env)).declares =
          (Part.statement s).declares) ∧
        ∀ env env', (s.bound k inStatic env).bound k inStatic env' = s.bound k inStatic env' :=
  ⟨fun h => ⟨h.declares, h.statement⟩,
    fun h => ⟨h.1, fun env env' => congrArg Part.statement (h.2 env env')⟩⟩

theorem expressions {es : List Expression}
    (h : ∀ p ∈ es.map Part.expression, p.Rebinds k inStatic) :
    (∀ env env', boundExpressions k inStatic env' (boundExpressions k inStatic env es) =
        boundExpressions k inStatic env' es) ∧
      ∀ env, (boundExpressions k inStatic env es).flatMap (fun e => (Part.expression e).declares) =
        es.flatMap fun e => (Part.expression e).declares :=
  list (fun _ _ => Part.expression.inj) (boundExpressions_parts k inStatic) h

theorem statements {ss : List Statement}
    (h : ∀ p ∈ ss.map Part.statement, p.Rebinds k inStatic) :
    (∀ env env', boundStatements k inStatic env' (boundStatements k inStatic env ss) =
        boundStatements k inStatic env' ss) ∧
      ∀ env, (boundStatements k inStatic env ss).flatMap (fun s => (Part.statement s).declares) =
        ss.flatMap fun s => (Part.statement s).declares :=
  list (fun _ _ => Part.statement.inj) (boundStatements_parts k inStatic) h

theorem catches {cs : List CatchClause}
    (h : ∀ p ∈ cs.map Part.catchClause, p.Rebinds k inStatic) :
    ∀ env env', boundCatches k inStatic env' (boundCatches k inStatic env cs) =
      boundCatches k inStatic env' cs :=
  (list (fun _ _ => Part.catchClause.inj) (boundCatches_parts k inStatic) h).1

theorem cases {cs : List CaseClause}
    (h : ∀ p ∈ cs.map Part.caseClause, p.Rebinds k inStatic) :
    (∀ env env', boundCases k inStatic env' (boundCases k inStatic env cs) =
        boundCases k inStatic env' cs) ∧
      ∀ env, (boundCases k inStatic env cs).flatMap (fun c => (Part.caseClause c).declares) =
        cs.flatMap fun c => (Part.caseClause c).declares :=
  list (fun _ _ => Part.caseClause.inj) (boundCases_parts k inStatic) h

end Part.Rebinds

theorem TypeRef.resolve_resolve (declared : List String) (t : TypeRef) :
    (t.resolve declared).resolve declared = t.resolve declared := rfl

theorem boundTarget_boundTarget (target : TypeRef) (special : Option SpecialCall) :
    boundTarget k (boundTarget k target special) special = boundTarget k target special := by
  cases special with
  | none => rfl
  | some special => cases special <;> rfl

theorem boundDeclared_boundDeclared (target : Expression) :
    boundDeclared k (boundDeclared k target) = boundDeclared k target := by
  obtain ⟨node, span, inferred⟩ := target
  cases node
  case variableRef name declared origin => cases declared <;> rfl
  all_goals rfl

theorem Binding.map_bound_bound (b : Option Binding) :
    (b.map (Binding.bound k)).map (Binding.bound k) = b.map (Binding.bound k) := by
  cases b <;> rfl

theorem closureFrame_bound (ps : Option (List Parameter)) :
    closureFrame (ps.map (boundClosureParameters k)) = closureFrame ps := by
  cases ps with
  | none => rfl
  | some ps => simp [closureFrame, boundClosureParameters, Function.comp_def]

theorem map_boundClosureParameters_twice (ps : Option (List Parameter)) :
    (ps.map (boundClosureParameters k)).map (boundClosureParameters k) =
      ps.map (boundClosureParameters k) := by
  cases ps with
  | none => rfl
  | some ps => simp [boundClosureParameters, Function.comp_def, TypeRef.resolve]

section

variable {span : Span}

theorem ExpressionNode.bound_bound {node : ExpressionNode} {inferred : Option String}
    (env env' : Scope) (hp : (Part.expression ⟨node, span, inferred⟩).Regular)
    (h : ∀ x ∈ node.analysed, x.2.Rebinds k inStatic) :
    (node.bound k inStatic env).bound k inStatic env' = node.bound k inStatic env' := by
  have hlist {es : List Expression}
      (h : ∀ x ∈ (es.map Part.expression).map fun q => ((none : Option Enclosure), q),
        x.2.Rebinds k inStatic) : ∀ p ∈ es.map Part.expression, p.Rebinds k inStatic :=
    fun p hp => h (none, p) (List.mem_map_of_mem hp)
  cases node
  case constant | classRef | variableRef | field | bytecode | empty => rfl
  case call object method arguments safe implicitReceiver =>
    simp only [analysed, children, List.map_cons, List.map_nil, List.forall_mem_cons,
      Part.Rebinds.expression_iff] at h
    by_cases hstatic : (inStatic && implicitReceiver && k.staticMethods.contains method) = true
    · -- the receiver that is dropped declares nothing
      obtain rfl : implicitReceiver = true := by
        simp only [Bool.and_eq_true] at hstatic
        exact hstatic.1.2
      have hnone : (Part.expression object).declares = [] := (Part.collect_variable hp.1).1
      simp only [ExpressionNode.bound, resolveCall, if_pos hstatic, hnone, Scope.declareAll_nil, h]
    · simp only [ExpressionNode.bound, resolveCall, if_neg hstatic, h]
  case construct target arguments special =>
    have harguments := (h _ (.head _)).expression
    simp only [ExpressionNode.bound, harguments, boundTarget_boundTarget]
  case declaration target value =>
    have hvalue := (h _ (.head _)).expression
    simp only [ExpressionNode.bound, hvalue, boundDeclared_boundDeclared]
  case closure parameters code =>
    have hcode := (h _ (.head _)).statement
    simp only [ExpressionNode.bound, hcode, closureFrame_bound, map_boundClosureParameters_twice]
  case sequence form items =>
    simp only [ExpressionNode.bound, Part.Rebinds.expressions (hlist h)]
  case array elementType elements sizes =>
    simp only [analysed, children, List.map_append, List.forall_mem_append] at h
    have helements := Part.Rebinds.expressions (hlist h.1)
    have hsizes := Part.Rebinds.expressions (hlist h.2)
    simp only [ExpressionNode.bound, helements, hsizes, TypeRef.resolve_resolve]
  case interpolation fragments values =>
    simp only [analysed_interpolation, List.forall_mem_append] at h
    have hfragments := Part.Rebinds.expressions (hlist h.1)
    have hvalues := Part.Rebinds.expressions (hlist h.2)
    simp only [ExpressionNode.bound, hfragments, hvalues]
  all_goals
    simp only [analysed, children, List.map_cons, List.map_nil, List.forall_mem_cons,
      Part.Rebinds.expression_iff] at h
    simp only [ExpressionNode.bound, h, TypeRef.resolve_resolve]

theorem StatementNode.bound_bound {node : StatementNode} (env env' : Scope)
    (h : ∀ x ∈ node.analysed, x.2.Rebinds k inStatic) :
    (node.bound k inStatic env).bound k inStatic env' = node.bound k inStatic env' := by
  cases node
  case breakLoop | continueLoop | empty => rfl
  case block statements declared =>
    have hstatements := Part.Rebinds.statements
      fun p hp => h (none, p) (List.mem_map_of_mem hp)
    simp only [StatementNode.bound, hstatements]
  case loop binding collection body =>
    simp only [analysed, List.forall_mem_cons, Part.Rebinds.expression_iff,
      Part.Rebinds.statement_iff] at h
    have henvironment : loopEnvironment (binding.map (Binding.bound k))
        (collection.bound k inStatic env.enter) env' = loopEnvironment binding collection env' := by
      cases binding <;> simp only [loopEnvironment, h, Option.map, Binding.bound]
    simp only [StatementNode.bound, h, henvironment, Binding.map_bound_bound]
  case tryCatch body catches finallyBlock =>
    simp only [analysed, children, List.map_append, List.map_cons, List.map_nil, List.cons_append,
      List.forall_mem_append, List.forall_mem_cons, Part.Rebinds.statement_iff] at h
    obtain ⟨hbody, hcatches, hfinally, -⟩ := h
    have hcatches := Part.Rebinds.catches
      fun p hp => hcatches (none, p) (List.mem_map_of_mem hp)
    simp only [StatementNode.bound, hbody, hcatches, hfinally]
  case switch subject cases defaultBlock =>
    simp only [analysed, children, List.map_append, List.map_cons, List.map_nil, List.cons_append,
      List.forall_mem_append, List.forall_mem_cons, Part.Rebinds.statement_iff,
      Part.Rebinds.expression_iff] at h
    obtain ⟨hsubject, hcases, hdefault, -⟩ := h
    have hcases := Part.Rebinds.cases
      fun p hp => hcases (some .switch, p) (List.mem_map_of_mem hp)
    simp only [StatementNode.bound, hsubject, hcases, hdefault]
  all_goals
    simp only [analysed, children, List.map_cons, List.map_nil, List.forall_mem_cons,
      Part.Rebinds.expression_iff, Part.Rebinds.statement_iff] at h
    simp only [StatementNode.bound, h]

end

/-- Code that is bound twice is bound the second time only. -/
theorem Part.rebinds (p : Part) (h : p.Tidy) : p.Rebinds k inStatic := by
  have hparts : ∀ x ∈ p.analysed, x.2.Rebinds k inStatic :=
    fun x hx => Part.rebinds x.2 (h.analysed hx)
  refine ⟨fun env => p.declares_bound env h, fun env env' => ?_⟩
  rcases p with ⟨node, span, inferred⟩ | ⟨node, span⟩ | ⟨binding, code, span⟩ |
    ⟨subject, code, span⟩
  · simp only [bound, Expression.bound, node.bound_bound env env' h.regular hparts]
  · simp only [bound, Statement.bound, node.bound_bound env env' hparts]
  · have hcode := (hparts _ (.head _)).statement
    simp only [bound, CatchClause.bound, hcode, Binding.bound, TypeRef.resolve_resolve]
  · simp only [analysed, List.forall_mem_cons, Rebinds.expression_iff, Rebinds.statement_iff]
      at hparts
    simp only [bound, CaseClause.bound, hparts]
termination_by sizeOf p
decreasing_by exact Part.sizeOf_lt_of_mem_analysed hx

/-! ### Members -/

section

variable {ps : List Parameter} {code : Option Statement}

/-- What holds of the code of a member holds of the default value of its first parameter. -/
theorem forall_mem_memberCode_cons {P : Part → Prop} {p : Parameter}
    (h : ∀ q ∈ memberCode (p :: ps) code, P q) :
    (∀ e ∈ p.defaultValue, P (.expression e)) ∧ ∀ q ∈ memberCode ps code, P q := by
  cases hp : p.defaultValue with
  | none =>
    rw [memberCode, List.filterMap_cons_none hp] at h
    exact ⟨by simp, h⟩
  | some e =>
    rw [memberCode, List.filterMap_cons_some hp] at h
    obtain ⟨he, hrest⟩ := List.forall_mem_cons.mp h
    exact ⟨by simpa using he, hrest⟩

theorem AllTidy.head_parameter {p : Parameter} (h : AllTidy (memberCode (p :: ps) code)) :
    (∀ e ∈ p.defaultValue, e.Tidy) ∧ AllTidy (memberCode ps code) :=
  forall_mem_memberCode_cons h

theorem Part.flatMap_declares_bound {e : Option Expression} (h : ∀ x ∈ e, x.Tidy) (env : Scope) :
    (e.map (·.bound k inStatic env)).toList.flatMap (fun e => (Part.expression e).declares) =
      e.toList.flatMap fun e => (Part.expression e).declares := by
  cases e with
  | none => rfl
  | some e =>
    have he : ((Part.expression e).bound k inStatic env).declares = (Part.expression e).declares :=
      (Part.expression e).declares_bound env (h e rfl)
    simpa [Part.bound] using he

theorem Expression.map_bound_bound {e : Option Expression} (h : ∀ x ∈ e, x.Tidy)
    (env env' : Scope) :
    (e.map (·.bound k inStatic env)).map (·.bound k inStatic env') =
      e.map (·.bound k inStatic env') := by
  cases e with
  | none => rfl
  | some e => exact congrArg some ((Part.rebinds (.expression e) (h e rfl)).expression env env')

theorem parameterEnvironment_bound (h : AllTidy (memberCode ps code)) (env env' : Scope) :
    parameterEnvironment env' (boundParameters k inStatic env ps) =
      parameterEnvironment env' ps := by
  induction ps generalizing env env' with
  | nil => rfl
  | cons p ps ih =>
    obtain ⟨hp, hps⟩ := h.head_parameter
    simp only [boundParameters, parameterEnvironment, Part.flatMap_declares_bound hp, ih hps]

theorem boundParameters_bound (h : AllTidy (memberCode ps code)) (env env' : Scope) :
    boundParameters k inStatic env' (boundParameters k inStatic env ps) =
      boundParameters k inStatic env' ps := by
  induction ps generalizing env env' with
  | nil => rfl
  | cons p ps ih =>
    obtain ⟨hp, hps⟩ := h.head_parameter
    simp only [boundParameters, parameterEnvironment, Part.flatMap_declares_bound hp,
      Expression.map_bound_bound hp, ih hps, TypeRef.resolve_resolve]

theorem Statement.map_bound_bound (h : AllTidy (memberCode ps code)) (env env' : Scope) :
    (code.map (·.bound k inStatic env)).map (·.bound k inStatic env') =
      code.map (·.bound k inStatic env') := by
  cases code with
  | none => rfl
  | some s =>
    have hs : s.Tidy := h _ (List.mem_append_right _ (.head _))
    exact congrArg some ((Part.rebinds (.statement s) hs).statement env env')

/-- What is collected from the code of a member, as long as binding does not change it. -/
theorem flatMap_memberCode_bound (k : ClassContext) (inStatic : Bool) {collect : Part → List γ}
    (h : AllTidy (memberCode ps code))
    (hcollect : ∀ p : Part, p.Tidy → ∀ env, collect (p.bound k inStatic env) = collect p)
    (env env' : Scope) :
    (memberCode (boundParameters k inStatic env ps) (code.map (·.bound k inStatic env'))).flatMap
      collect = (memberCode ps code).flatMap collect := by
  -- a parameter is in scope for the default values behind it, so the scope changes on the way
  induction ps generalizing env with
  | nil =>
    cases code with
    | none => rfl
    | some s =>
      have hs : s.Tidy := h _ (.head _)
      have := hcollect (.statement s) hs env'
      simpa [memberCode, boundParameters, Part.bound] using this
  | cons p ps ih =>
    obtain ⟨hp, hps⟩ := h.head_parameter
    have hrest := ih hps (parameterEnvironment env [p])
    cases hd : p.defaultValue with
    | none => simpa [memberCode, boundParameters, hd] using hrest
    | some e =>
      have he := hcollect (.expression e) (hp e hd) env
      simp only [Part.bound] at he
      simpa [memberCode, boundParameters, hd, he] using hrest

end

namespace CompiledClass

variable {c : CompiledClass} (declared : List String)

/-- What is known about a class while its code is visited does not change. -/
theorem context_bound (c : CompiledClass) :
    ClassContext.of declared (c.bound declared) = ClassContext.of declared c := by
  simp [ClassContext.of, CompiledClass.bound, Field.bound, Method.bound, Property.resolve,
    TypeRef.resolve, Function.comp_def, List.filter_map]

theorem bound_eq (c : CompiledClass) :
    c.bound declared =
      { c with
        superClass := c.superClass.resolve declared
        interfaces := c.interfaces.map (·.resolve declared)
        annotations := c.annotations.map (·.resolve (.of declared c))
        fields := c.fields.map (Field.bound (.of declared c))
        properties := c.properties.map (·.resolve (.of declared c))
        constructors := c.constructors.map (Constructor.bound (.of declared c))
        methods := c.methods.map (Method.bound (.of declared c)) } := by
  rw [CompiledClass.bound, ClassContext.of_signature]

end CompiledClass

theorem Field.bound_bound {f : Field} (h : ∀ e ∈ f.initial, e.Tidy) :
    (f.bound k).bound k = f.bound k := by
  simp only [Field.bound, Expression.map_bound_bound h, TypeRef.resolve_resolve]

theorem Constructor.bound_bound {x : Constructor} (h : AllTidy (memberCode x.parameters x.code)) :
    (x.bound k).bound k = x.bound k := by
  simp only [Constructor.bound, boundParameters_bound h, parameterEnvironment_bound h,
    Statement.map_bound_bound h]

theorem Method.bound_bound {m : Method} (h : AllTidy (memberCode m.parameters m.code)) :
    (m.bound k).bound k = m.bound k := by
  have hlocals := flatMap_memberCode_bound k m.modifiers.isStatic h
    (fun p hp env => p.locals_bound env hp) [[]] (parameterEnvironment [[]] m.parameters)
  simp only [Method.bound, boundParameters_bound h, parameterEnvironment_bound h,
    Statement.map_bound_bound h, hlocals, Visit.boundParameters_names, TypeRef.resolve_resolve]

/-- Members that are bound twice, one by one. -/
theorem map_map_bound {α : Type} (bound : α → α) {xs : List α}
    (h : ∀ x ∈ xs, bound (bound x) = bound x) : (xs.map bound).map bound = xs.map bound := by
  rw [List.map_map]
  exact List.map_congr_left h

namespace CompiledClass

variable {c : CompiledClass} (declared : List String)

theorem bound_bound (h : c.Tidy) : (c.bound declared).bound declared = c.bound declared := by
  have hfields := map_map_bound (Field.bound (.of declared c))
    fun f hf => Field.bound_bound (h.field hf)
  have hconstructors := map_map_bound (Constructor.bound (.of declared c))
    fun x hx => Constructor.bound_bound (h.constructor hx)
  have hmethods := map_map_bound (Method.bound (.of declared c))
    fun m hm => Method.bound_bound (h.method hm)
  have hproperties := map_map_bound (Property.resolve (.of declared c))
    fun p (_ : p ∈ c.properties) => rfl
  have hannotations := map_map_bound (fun a : Annotation => a.resolve (.of declared c))
    fun a (_ : a ∈ c.annotations) => rfl
  have hinterfaces := map_map_bound (TypeRef.resolve declared)
    fun t (_ : t ∈ c.interfaces) => rfl
  rw [bound_eq, context_bound, bound_eq]
  simp only [hfields, hconstructors, hmethods, hproperties, hannotations, hinterfaces,
    TypeRef.resolve_resolve]

/-- What is collected from members that are bound one by one. -/
theorem flatMap_flatMap_bound {α : Type} {bound : α → α} {code : α → List Part} {xs : List α}
    {collect : Part → List γ}
    (h : ∀ x ∈ xs, (code (bound x)).flatMap collect = (code x).flatMap collect) :
    ((xs.map bound).flatMap code).flatMap collect = (xs.flatMap code).flatMap collect := by
  simp only [List.flatMap_assoc, List.flatMap_map]
  exact List.flatMap_congr h

theorem faults_bound (h : c.Tidy) : (c.bound declared).faults declared = c.faults declared := by
  have hcollect (k : ClassContext) (inStatic : Bool) (p : Part) (hp : p.Tidy) (env : Scope) :
      (p.bound k inStatic env).faults declared [] = p.faults declared [] :=
    p.faults_bound env hp declared []
  rw [bound_eq]
  simp only [faults, analysedCode, List.flatMap_append]
  rw [flatMap_flatMap_bound, flatMap_flatMap_bound, flatMap_flatMap_bound]
  · exact fun m hm => flatMap_memberCode_bound _ _ (h.method hm) (hcollect _ _) _ _
  · exact fun x hx => flatMap_memberCode_bound _ _ (h.constructor hx) (hcollect _ _) _ _
  · intro f hf
    cases hi : f.initial with
    | none => simp [Field.bound, hi]
    | some e =>
      have he := hcollect (.of declared c) f.modifiers.isStatic (.expression e)
        (h.field hf e hi) []
      simp only [Part.bound] at he
      simpa [Field.bound, hi] using he

end CompiledClass

/-! ### Modules -/

/-- The first class is bound; the others are resolved unless it is faulty. -/
theorem resolveClasses_cons (declared : List String) (c : CompiledClass)
    (rest : List CompiledClass) :
    resolveClasses declared (c :: rest) =
      match (c.faults declared).head? with
      | some failure => (c.bound declared :: rest, some failure)
      | none =>
        (c.bound declared :: (resolveClasses declared rest).1,
          (resolveClasses declared rest).2) := by
  obtain ⟨q, hq, -, hf⟩ := c.resolves declared {} Progress.atTop_start
  have hfailure : q.failure = (c.faults declared).head? := hf
  rw [resolveClasses]
  cases hfault : (c.faults declared).head? <;> simp only [hq, hfailure, hfault]

theorem resolveClasses_names (declared : List String) (cs : List CompiledClass) :
    (resolveClasses declared cs).1.map CompiledClass.name = cs.map CompiledClass.name := by
  induction cs with
  | nil => rfl
  | cons c rest ih =>
    rw [resolveClasses_cons]
    cases (c.faults declared).head? with
    | some failure => rfl
    | none => exact congrArg (c.name :: ·) ih

theorem resolveClasses_twice (declared : List String) {cs : List CompiledClass}
    (h : ∀ c ∈ cs, c.Tidy) :
    resolveClasses declared (resolveClasses declared cs).1 = resolveClasses declared cs := by
  induction cs with
  | nil => rfl
  | cons c rest ih =>
    obtain ⟨hc, hrest⟩ := List.forall_mem_cons.mp h
    rw [resolveClasses_cons]
    cases hfault : (c.faults declared).head? with
    | some failure =>
      rw [resolveClasses_cons, CompiledClass.faults_bound declared hc, hfault,
        CompiledClass.bound_bound declared hc]
    | none =>
      rw [resolveClasses_cons, CompiledClass.faults_bound declared hc, hfault,
        CompiledClass.bound_bound declared hc]
      simp only [ih hrest]

/-- Resolving the names of what an earlier run left changes nothing, and answers the same
fault. -/
theorem CompiledModule.resolve_resolve {m : CompiledModule} (h : ∀ c ∈ m.classes, c.Tidy) :
    m.resolve.1.resolve = m.resolve := by
  have hclasses := resolveClasses_twice m.classNames h
  have hnames : m.resolve.1.classes.map CompiledClass.name = m.classNames :=
    resolveClasses_names m.classNames m.classes
  simp only [CompiledModule.resolve] at hnames ⊢
  rw [hnames]
  exact congrArg (fun r => (CompiledModule.mk m.name r.1, r.2)) hclasses

end ScriptOutline
