/-
ScriptOutline/Proofs/Indifference.lean

Code that is varied before its names are resolved, or after that.  It makes no difference when, as
long as the braces that are put in fit (`CompiledModule.resolve_braces`): every variable has the
origin that it had without the braces, and every other block and every method the names.

One lemma carries the proof: a part can be varied before or after it is bound
(`Part.Indifferent`).  It goes by recursion over the code.  Where braces are put in, the body is
bound in one frame more, which is empty and so makes no difference inside of another frame
(`Part.Indifferent.body`).  For what comes after the body, it has to declare nothing: a declaration
that is itself a branch is known behind the branch, unless braces keep it in
(`CompiledModule.resolve_braces_declaringBranch`).
-/
import ScriptOutline.Proofs.Agreement
import ScriptOutline.Proofs.Rebinding
import ScriptOutline.Proofs.StaticCalls
import ScriptOutline.Proofs.Variation

namespace ScriptOutline

/-- The variation after the resolution of names, which notes no names in the blocks put in. -/
def Variation.known (v : Variation) : Variation := { v with noted := some [] }

@[simp] theorem Variation.known_braces (v : Variation) : v.known.braces = v.braces := rfl

@[simp] theorem Variation.known_noted (v : Variation) : v.known.noted = some [] := rfl

/-- The part can stand in the environment: statements and clauses stand in a frame. -/
def Part.Placed (env : Scope) : Part → Prop
  | .expression _ => True
  | _ => env ≠ []

theorem Part.Placed.declareAll {p : Part} {env : Scope} (h : p.Placed env) (names : List String) :
    p.Placed (env.declareAll names) := by
  cases p with
  | expression e => exact h
  | _ => exact Scope.declareAll_ne_nil h names

/-- The part can be varied before it is bound or after that. -/
structure Part.Indifferent (v : Variation) (k : ClassContext) (inStatic : Bool) (p : Part) :
    Prop where
  declares : (p.varied v).declares = p.declares
  bound : ∀ env, p.Placed env →
    (p.varied v).bound k inStatic env = (p.bound k inStatic env).varied v.known

variable {v : Variation} {k : ClassContext} {inStatic : Bool}

/-! ### Parts of code -/

namespace Part.Indifferent

theorem boundParts {ps : List Part} (h : ∀ p ∈ ps, p.Indifferent v k inStatic) {env : Scope}
    (henv : ∀ p ∈ ps, p.Placed env) :
    boundParts k inStatic env (ps.map (·.varied v)) =
      (boundParts k inStatic env ps).map (·.varied v.known) := by
  induction ps generalizing env with
  | nil => rfl
  | cons p ps ih =>
    obtain ⟨hp, hps⟩ := List.forall_mem_cons.mp h
    obtain ⟨hpenv, hpsenv⟩ := List.forall_mem_cons.mp henv
    have hrest := ih hps fun q hq => (hpsenv q hq).declareAll p.declares
    simp only [List.map_cons, ScriptOutline.boundParts, hp.declares, hp.bound env hpenv, hrest]

/-- Parts of one kind, which are bound one after the other. -/
theorem list {α : Type} {part : α → Part} (hpart : Function.Injective part)
    {vary : Variation → α → α} (hvary : ∀ v x, part (vary v x) = (part x).varied v)
    {bind : Scope → List α → List α}
    (hbind : ∀ env xs,
      (bind env xs).map part = ScriptOutline.boundParts k inStatic env (xs.map part))
    {xs : List α} (h : ∀ p ∈ xs.map part, p.Indifferent v k inStatic) :
    (xs.map (vary v)).flatMap (fun x => (part x).declares) =
        (xs.flatMap fun x => (part x).declares) ∧
      ∀ env, (∀ x ∈ xs, (part x).Placed env) →
        bind env (xs.map (vary v)) = (bind env xs).map (vary v.known) := by
  have hmap (v : Variation) (xs : List α) :
      (xs.map (vary v)).map part = (xs.map part).map (·.varied v) := by
    rw [List.map_map, List.map_map]
    exact List.map_congr_left fun x _ => hvary v x
  constructor
  · rw [List.flatMap_map]
    refine List.flatMap_congr fun x hx => ?_
    rw [hvary, (h _ (List.mem_map_of_mem hx)).declares]
  · intro env henv
    refine List.map_injective_iff.mpr hpart ?_
    rw [hbind, hmap, hmap, hbind, boundParts h (List.forall_mem_map.mpr henv)]

theorem expression_iff {e : Expression} :
    Indifferent v k inStatic (.expression e) ↔
      (Part.expression (e.varied v)).declares = (Part.expression e).declares ∧
        ∀ env, (e.varied v).bound k inStatic env = (e.bound k inStatic env).varied v.known :=
  ⟨fun h => ⟨h.declares, fun env => Part.expression.inj (h.bound env trivial)⟩,
    fun h => ⟨h.1, fun env _ => congrArg Part.expression (h.2 env)⟩⟩

theorem statement_iff {s : Statement} :
    Indifferent v k inStatic (.statement s) ↔
      (Part.statement (s.varied v)).declares = (Part.statement s).declares ∧
        ∀ env : Scope, env ≠ [] →
          (s.varied v).bound k inStatic env = (s.bound k inStatic env).varied v.known :=
  ⟨fun h => ⟨h.declares, fun env henv => Part.statement.inj (h.bound env henv)⟩,
    fun h => ⟨h.1, fun env henv => congrArg Part.statement (h.2 env henv)⟩⟩

theorem expressions {es : List Expression}
    (h : ∀ p ∈ es.map Part.expression, p.Indifferent v k inStatic) :
    (variedExpressions v es).flatMap (fun e => (Part.expression e).declares) =
        (es.flatMap fun e => (Part.expression e).declares) ∧
      ∀ env, boundExpressions k inStatic env (variedExpressions v es) =
        variedExpressions v.known (boundExpressions k inStatic env es) := by
  obtain ⟨hdeclares, hbound⟩ := list (fun _ _ => Part.expression.inj) (fun _ _ => rfl)
    (boundExpressions_parts k inStatic) h
  simp only [variedExpressions_eq_map]
  exact ⟨hdeclares, fun env => hbound env fun _ _ => trivial⟩

theorem statements {ss : List Statement}
    (h : ∀ p ∈ ss.map Part.statement, p.Indifferent v k inStatic) :
    (variedStatements v ss).flatMap (fun s => (Part.statement s).declares) =
        (ss.flatMap fun s => (Part.statement s).declares) ∧
      ∀ env : Scope, env ≠ [] → boundStatements k inStatic env (variedStatements v ss) =
        variedStatements v.known (boundStatements k inStatic env ss) := by
  obtain ⟨hdeclares, hbound⟩ := list (fun _ _ => Part.statement.inj) (fun _ _ => rfl)
    (boundStatements_parts k inStatic) h
  simp only [variedStatements_eq_map]
  exact ⟨hdeclares, fun env henv => hbound env fun _ _ => henv⟩

theorem catches {cs : List CatchClause}
    (h : ∀ p ∈ cs.map Part.catchClause, p.Indifferent v k inStatic) :
    ∀ env : Scope, env ≠ [] → boundCatches k inStatic env (variedCatches v cs) =
      variedCatches v.known (boundCatches k inStatic env cs) := by
  obtain ⟨-, hbound⟩ := list (fun _ _ => Part.catchClause.inj) (fun _ _ => rfl)
    (boundCatches_parts k inStatic) h
  simp only [variedCatches_eq_map]
  exact fun env henv => hbound env fun _ _ => henv

theorem cases {cs : List CaseClause}
    (h : ∀ p ∈ cs.map Part.caseClause, p.Indifferent v k inStatic) :
    (variedCases v cs).flatMap (fun c => (Part.caseClause c).declares) =
        (cs.flatMap fun c => (Part.caseClause c).declares) ∧
      ∀ env : Scope, env ≠ [] → boundCases k inStatic env (variedCases v cs) =
        variedCases v.known (boundCases k inStatic env cs) := by
  obtain ⟨hdeclares, hbound⟩ := list (fun _ _ => Part.caseClause.inj) (fun _ _ => rfl)
    (boundCases_parts k inStatic) h
  simp only [variedCases_eq_map]
  exact ⟨hdeclares, fun env henv => hbound env fun _ _ => henv⟩

/-- A body that gets braces is bound in an empty frame more, and notes no names. -/
theorem body {s : Statement} (h : Indifferent v k inStatic (.statement s))
    (hfits : (v.braces s.span).isSome = true → (Part.statement s).declares = []) :
    (Part.statement (v.body (s.varied v))).declares = (Part.statement s).declares ∧
      ∀ env : Scope, env ≠ [] → (v.body (s.varied v)).bound k inStatic env =
        v.known.body ((s.bound k inStatic env).varied v.known) := by
  obtain ⟨hdeclares, hbound⟩ := statement_iff.mp h
  have hspan (env : Scope) : (s.bound k inStatic env).span = s.span := by
    obtain ⟨node, span⟩ := s
    rfl
  cases hs : v.braces s.span with
  | none => simpa [Variation.body, hs, hspan, hdeclares] using hbound
  | some span =>
    have hnone := hfits (Option.isSome_of_eq_some hs)
    constructor
    · rw [hnone]
      simp only [Variation.body, Statement.span_varied, hs]
      exact Part.declares_of_hasFrame rfl
    · intro env henv
      have hinside : (s.varied v).bound k inStatic env.enter =
          (s.bound k inStatic env).varied v.known := by
        rw [(s.varied v).bound_congr (.enter henv), hbound env henv]
      simp [Variation.body, hs, hspan, Statement.bound, StatementNode.bound, boundStatements,
        hinside, hdeclares, hnone]

end Part.Indifferent

/-! ### Nodes -/

theorem closureFrame_varied (ps : Option (List Parameter)) :
    closureFrame (ps.map (·.map v.parameter)) = closureFrame ps := by
  cases ps with
  | none => rfl
  | some ps => simp [closureFrame, Variation.parameter, Function.comp_def]

/-- The default values of closure parameters are left alone. -/
theorem map_boundClosureParameters_varied (ps : Option (List Parameter)) :
    (ps.map (·.map v.parameter)).map (boundClosureParameters k) =
      (ps.map (boundClosureParameters k)).map (·.map v.known.parameter) := by
  cases ps with
  | none => rfl
  | some ps =>
    simp [boundClosureParameters, Variation.parameter, Variation.known, Function.comp_def]

theorem ExpressionNode.varied_resolveCall (object : Expression) (method : String)
    (arguments : Expression) (safe implicitReceiver : Bool) :
    (resolveCall k inStatic object method arguments safe implicitReceiver).varied v =
      resolveCall k inStatic (object.varied v) method (arguments.varied v) safe
        implicitReceiver := by
  rw [resolveCall, resolveCall]
  split <;> rfl

theorem ExpressionNode.bound_varied {node : ExpressionNode}
    (h : ∀ x ∈ node.analysed, x.2.Indifferent v k inStatic) (env : Scope) :
    (node.varied v).bound k inStatic env = (node.bound k inStatic env).varied v.known := by
  have hlist {es : List Expression}
      (h : ∀ x ∈ (es.map Part.expression).map fun q => ((none : Option Enclosure), q),
        x.2.Indifferent v k inStatic) : ∀ p ∈ es.map Part.expression, p.Indifferent v k inStatic :=
    fun p hp => h (none, p) (List.mem_map_of_mem hp)
  cases node
  case constant | classRef | variableRef | field | bytecode | empty => rfl
  case call object method arguments safe implicitReceiver =>
    simp only [analysed, children, List.map_cons, List.map_nil, List.forall_mem_cons,
      Part.Indifferent.expression_iff] at h
    simp only [varied, ExpressionNode.bound, varied_resolveCall, h]
  case declaration target value =>
    obtain ⟨-, hvalue⟩ := Part.Indifferent.expression_iff.mp (h _ (.head _))
    simp only [varied, ExpressionNode.bound, hvalue]
  case closure parameters code =>
    obtain ⟨-, hcode⟩ := Part.Indifferent.statement_iff.mp (h _ (.head _))
    simp only [varied, ExpressionNode.bound, closureFrame_varied,
      map_boundClosureParameters_varied, hcode _ (List.cons_ne_nil _ _)]
  case sequence form items =>
    simp only [varied, ExpressionNode.bound, Part.Indifferent.expressions (hlist h)]
  case array elementType elements sizes =>
    simp only [analysed, children, List.map_append, List.forall_mem_append] at h
    have helements := Part.Indifferent.expressions (hlist h.1)
    have hsizes := Part.Indifferent.expressions (hlist h.2)
    simp only [varied, ExpressionNode.bound, helements, hsizes]
  case interpolation fragments values =>
    simp only [analysed_interpolation, List.forall_mem_append] at h
    have hfragments := Part.Indifferent.expressions (hlist h.1)
    have hvalues := Part.Indifferent.expressions (hlist h.2)
    simp only [varied, ExpressionNode.bound, hfragments, hvalues]
  all_goals
    simp only [analysed, children, List.map_cons, List.map_nil, List.forall_mem_cons,
      Part.Indifferent.expression_iff] at h
    simp only [varied, ExpressionNode.bound, h]

theorem StatementNode.bound_varied {node : StatementNode} {span : Span}
    (hfits : (Part.statement ⟨node, span⟩).Fits v)
    (h : ∀ x ∈ node.analysed, x.2.Indifferent v k inStatic) {env : Scope} (henv : env ≠ []) :
    (node.varied v).bound k inStatic env = (node.bound k inStatic env).varied v.known := by
  -- without a frame to declare them in, names would be lost
  have hdeclareAll (names : List String) : env.declareAll names ≠ [] :=
    Scope.declareAll_ne_nil henv names
  cases node
  case breakLoop | continueLoop | empty => rfl
  case block statements declared =>
    have hstatements := Part.Indifferent.statements
      fun p hp => h (none, p) (List.mem_map_of_mem hp)
    have henter : env.enter ≠ [] := List.cons_ne_nil _ _
    simp only [varied, StatementNode.bound, hstatements.1, hstatements.2 _ henter]
  case loop binding collection body =>
    simp only [analysed, List.forall_mem_cons, Part.Indifferent.expression_iff,
      Part.Indifferent.statement_iff] at h
    obtain ⟨hcollection, hbody, -⟩ := h
    have henvironment : loopEnvironment binding (collection.varied v) env =
        loopEnvironment binding collection env := by
      simp only [loopEnvironment, hcollection.1]
    have hloop : loopEnvironment binding collection env ≠ [] :=
      Scope.declareAll_ne_nil (Scope.declareAll_ne_nil (List.cons_ne_nil _ _) _) _
    simp only [varied, StatementNode.bound, hcollection.2, henvironment, hbody.2 _ hloop]
  case whileLoop condition body =>
    -- the body may get braces, which fit since it declares nothing
    have hbody := (h _ (.tail _ (.head _))).body (hfits rfl body (.tail _ (.head _)))
    have hcondition := Part.Indifferent.expression_iff.mp (h _ (.head _))
    simp only [varied, StatementNode.bound, hcondition, hbody.2 _ (hdeclareAll _)]
  case doWhile body condition =>
    have hbody := (h _ (.head _)).body (hfits rfl body (.head _))
    have hcondition := Part.Indifferent.expression_iff.mp (h _ (.tail _ (.head _)))
    simp only [varied, StatementNode.bound, hcondition, hbody.1, hbody.2 _ henv]
  case branch condition whenTrue whenFalse =>
    have hcondition := Part.Indifferent.expression_iff.mp (h _ (.head _))
    have hwhenTrue := (h _ (.tail _ (.head _))).body (hfits rfl whenTrue (.tail _ (.head _)))
    have hwhenFalse := (h _ (.tail _ (.tail _ (.head _)))).body
      (hfits rfl whenFalse (.tail _ (.tail _ (.head _))))
    simp only [varied, StatementNode.bound, hcondition, hwhenTrue.1, hwhenTrue.2 _ (hdeclareAll _),
      hwhenFalse.2 _ (Scope.declareAll_ne_nil (hdeclareAll _) _)]
  case tryCatch body catches finallyBlock =>
    simp only [analysed, children, List.map_append, List.map_cons, List.map_nil, List.cons_append,
      List.forall_mem_append, List.forall_mem_cons, Part.Indifferent.statement_iff] at h
    obtain ⟨hbody, hcatches, hfinally, -⟩ := h
    have hcatches := Part.Indifferent.catches
      fun p hp => hcatches (none, p) (List.mem_map_of_mem hp)
    simp only [varied, StatementNode.bound, hbody.1, hbody.2 _ henv, hcatches _ (hdeclareAll _),
      hfinally.2 _ (hdeclareAll _)]
  case switch subject cases defaultBlock =>
    simp only [analysed, children, List.map_append, List.map_cons, List.map_nil, List.cons_append,
      List.forall_mem_append, List.forall_mem_cons, Part.Indifferent.statement_iff,
      Part.Indifferent.expression_iff] at h
    obtain ⟨hsubject, hcases, hdefault, -⟩ := h
    have hcases := Part.Indifferent.cases
      fun p hp => hcases (some .switch, p) (List.mem_map_of_mem hp)
    simp only [varied, StatementNode.bound, hsubject, hcases.1, hcases.2 _ (hdeclareAll _),
      hdefault.2 _ (Scope.declareAll_ne_nil (hdeclareAll _) _)]
  all_goals
    simp only [analysed, children, List.map_cons, List.map_nil, List.forall_mem_cons,
      Part.Indifferent.expression_iff, Part.Indifferent.statement_iff] at h
    simp only [varied, StatementNode.bound, h, hdeclareAll, ne_eq, not_false_eq_true]

/-! ### Code -/

/-- Code can be varied before it is bound or after that, if the variation fits everywhere. -/
theorem Part.indifferent (p : Part) (h : (Piece.code p).Everywhere (Part.Fits v)) :
    p.Indifferent v k inStatic := by
  have hparts : ∀ x ∈ p.analysed, x.2.Indifferent v k inStatic :=
    fun x hx => Part.indifferent x.2 (h.analysed hx)
  refine ⟨p.declares_varied h, fun env henv => ?_⟩
  rcases p with ⟨node, span, inferred⟩ | ⟨node, span⟩ | ⟨binding, code, span⟩ |
    ⟨subject, code, span⟩
  · simp only [varied, bound, Expression.varied, Expression.bound, node.bound_varied hparts env]
  · simp only [varied, bound, Statement.varied, Statement.bound,
      node.bound_varied h.self hparts henv]
  · have hcode := Indifferent.statement_iff.mp (hparts _ (.head _))
    simp only [varied, bound, CatchClause.varied, CatchClause.bound,
      hcode.2 _ (List.cons_ne_nil _ _)]
  · have hsubject := Indifferent.expression_iff.mp (hparts _ (.head _))
    have hcode := Indifferent.statement_iff.mp (hparts _ (.tail _ (.head _)))
    have hinside : env.declareAll (Part.expression subject).declares ≠ [] :=
      Scope.declareAll_ne_nil henv _
    simp only [varied, bound, CaseClause.varied, CaseClause.bound, hsubject, hcode.2 _ hinside]
termination_by sizeOf p
decreasing_by exact Part.sizeOf_lt_of_mem_analysed hx

theorem Expression.bound_varied (e : Expression)
    (h : (Piece.code (.expression e)).Everywhere (Part.Fits v)) (env : Scope) :
    (e.varied v).bound k inStatic env = (e.bound k inStatic env).varied v.known :=
  (Part.Indifferent.expression_iff.mp ((Part.expression e).indifferent h)).2 env

theorem Statement.bound_varied (s : Statement)
    (h : (Piece.code (.statement s)).Everywhere (Part.Fits v)) {env : Scope} (henv : env ≠ []) :
    (s.varied v).bound k inStatic env = (s.bound k inStatic env).varied v.known :=
  (Part.Indifferent.statement_iff.mp ((Part.statement s).indifferent h)).2 env henv

/-! ### Members -/

/-- The variation fits everywhere in the parts. -/
def AllFit (v : Variation) (qs : List Part) : Prop :=
  ∀ q ∈ qs, (Piece.code q).Everywhere (Part.Fits v)

section

variable {ps : List Parameter} {code : Option Statement}

theorem memberCode_varied :
    memberCode (ps.map (·.varied v)) (code.map (·.varied v)) =
      (memberCode ps code).map (·.varied v) := by
  have hvalues : (ps.map (·.varied v)).filterMap Parameter.defaultValue =
      (ps.filterMap Parameter.defaultValue).map (·.varied v) := by
    rw [List.filterMap_map, List.map_filterMap]
    rfl
  have hcode : (code.map (·.varied v)).toList = code.toList.map (·.varied v) := by
    cases code <;> rfl
  rw [memberCode, memberCode, hvalues, hcode, List.map_append, List.map_map, List.map_map,
    List.map_map, List.map_map]
  rfl

theorem Parameter.varied_eq (p : Parameter) :
    p.varied v = ⟨p.name, p.type, p.defaultValue.map (·.varied v)⟩ := rfl

theorem parameterEnvironment_head {p : Parameter}
    (h : ∀ e ∈ p.defaultValue, (Piece.code (.expression e)).Everywhere (Part.Fits v))
    (env : Scope) : parameterEnvironment env [p.varied v] = parameterEnvironment env [p] := by
  cases hp : p.defaultValue with
  | none => simp [parameterEnvironment, Parameter.varied_eq, hp]
  | some e =>
    have hdeclares : (Part.expression (e.varied v)).declares = (Part.expression e).declares :=
      (Part.expression e).declares_varied (h e hp)
    simp [parameterEnvironment, Parameter.varied_eq, hp, hdeclares]

theorem AllFit.parameterEnvironment (h : AllFit v (memberCode ps code)) (env : Scope) :
    parameterEnvironment env (ps.map (·.varied v)) =
      ScriptOutline.parameterEnvironment env ps := by
  induction ps generalizing env with
  | nil => rfl
  | cons p ps ih =>
    obtain ⟨hp, hps⟩ := forall_mem_memberCode_cons h
    show ScriptOutline.parameterEnvironment (ScriptOutline.parameterEnvironment env [p.varied v])
      (ps.map (·.varied v)) = _
    rw [parameterEnvironment_head hp, ih hps]
    rfl

theorem AllFit.boundParameters (h : AllFit v (memberCode ps code)) (env : Scope) :
    boundParameters k inStatic env (ps.map (·.varied v)) =
      (ScriptOutline.boundParameters k inStatic env ps).map (·.varied v.known) := by
  induction ps generalizing env with
  | nil => rfl
  | cons p ps ih =>
    obtain ⟨hp, hps⟩ := forall_mem_memberCode_cons h
    have hvalue : (p.varied v).defaultValue.map (·.bound k inStatic env) =
        (p.defaultValue.map (·.bound k inStatic env)).map (·.varied v.known) := by
      rw [Parameter.varied_eq]
      cases hvalue : p.defaultValue with
      | none => rfl
      | some e => exact congrArg some (e.bound_varied (hp e hvalue) env)
    rw [List.map_cons, ScriptOutline.boundParameters, ScriptOutline.boundParameters, hvalue,
      parameterEnvironment_head hp, ih hps]
    rfl

theorem AllFit.body (h : AllFit v (memberCode ps code)) {env : Scope} (henv : env ≠ []) :
    (code.map (·.varied v)).map (·.bound k inStatic env) =
      (code.map (·.bound k inStatic env)).map (·.varied v.known) := by
  cases code with
  | none => rfl
  | some s =>
    have hs := h (.statement s) (List.mem_append_right _ (.head _))
    exact congrArg some (s.bound_varied hs henv)

end

/-- What is collected from parts that the variation fits. -/
theorem AllFit.flatMap {γ : Type} {collect : Part → List γ} {qs : List Part} (h : AllFit v qs)
    (hcollect : ∀ q : Part, (Piece.code q).Everywhere (Part.Fits v) →
      collect (q.varied v) = collect q) :
    (qs.map (·.varied v)).flatMap collect = qs.flatMap collect := by
  rw [List.flatMap_map]
  exact List.flatMap_congr fun q hq => hcollect q (h q hq)

theorem parameterEnvironment_ne_nil {ps : List Parameter} {env : Scope} (h : env ≠ []) :
    parameterEnvironment env ps ≠ [] := by
  obtain ⟨frame, outer, rfl⟩ := List.exists_cons_of_ne_nil h
  obtain ⟨inner, hinner⟩ := parameterEnvironment_cons ps frame outer
  exact hinner ▸ List.cons_ne_nil _ _

/-! ### Classes -/

/-- The variation fits everywhere in the code that is visited. -/
def CompiledClass.Fits (v : Variation) (c : CompiledClass) : Prop := AllFit v c.analysedCode

theorem Field.bound_varied {f : Field}
    (h : ∀ e ∈ f.initial, (Piece.code (.expression e)).Everywhere (Part.Fits v)) :
    (f.varied v).bound k = (f.bound k).varied v.known := by
  have hinitial : (f.initial.map (·.varied v)).map (·.bound k f.modifiers.isStatic []) =
      (f.initial.map (·.bound k f.modifiers.isStatic [])).map (·.varied v.known) := by
    cases hi : f.initial with
    | none => rfl
    | some e => exact congrArg some (e.bound_varied (h e hi) [])
  simp only [Field.bound, Field.varied, hinitial]

theorem Constructor.bound_varied {x : Constructor}
    (h : AllFit v (memberCode x.parameters x.code)) :
    (x.varied v).bound k = (x.bound k).varied v.known := by
  have hinside : parameterEnvironment [[]] x.parameters ≠ [] :=
    parameterEnvironment_ne_nil (List.cons_ne_nil _ _)
  simp only [Constructor.bound, Constructor.varied, h.boundParameters, h.parameterEnvironment,
    h.body hinside]

theorem Method.bound_varied {m : Method} (h : AllFit v (memberCode m.parameters m.code)) :
    (m.varied v).bound k = (m.bound k).varied v.known := by
  have hinside : parameterEnvironment [[]] m.parameters ≠ [] :=
    parameterEnvironment_ne_nil (List.cons_ne_nil _ _)
  have hnames : (m.parameters.map (·.varied v)).map Parameter.name =
      m.parameters.map Parameter.name := by
    rw [List.map_map]
    rfl
  have hlocals : (memberCode (m.parameters.map (·.varied v)) (m.code.map (·.varied v))).flatMap
      Part.locals = (memberCode m.parameters m.code).flatMap Part.locals := by
    rw [memberCode_varied]
    exact h.flatMap Part.locals_varied
  simp only [Method.bound, Method.varied, h.boundParameters, h.parameterEnvironment,
    h.body hinside, hnames, hlocals]

namespace CompiledClass

variable {c : CompiledClass} (declared : List String)

theorem context_varied (c : CompiledClass) :
    ClassContext.of declared (c.varied v) = ClassContext.of declared c := by
  simp [ClassContext.of, CompiledClass.varied, Field.varied, Method.varied, Function.comp_def,
    List.filter_map]

theorem analysedCode_varied (c : CompiledClass) :
    (c.varied v).analysedCode = c.analysedCode.map (·.varied v) := by
  have hfield (f : Field) : (f.varied v).initial.toList.map Part.expression =
      (f.initial.toList.map Part.expression).map (·.varied v) := by
    rw [Field.varied]
    cases f.initial <;> rfl
  simp only [analysedCode, CompiledClass.varied, List.flatMap_map, List.map_append,
    List.map_flatMap, hfield, Constructor.varied, Method.varied, memberCode_varied]

theorem Fits.faults_varied (h : c.Fits v) : (c.varied v).faults declared = c.faults declared := by
  rw [faults, analysedCode_varied]
  exact h.flatMap fun q hq => q.faults_varied hq declared []

theorem Fits.bound_varied (h : c.Fits v) :
    (c.varied v).bound declared = (c.bound declared).varied v.known := by
  simp only [Fits, AllFit, analysedCode, List.forall_mem_append, List.forall_mem_flatMap] at h
  obtain ⟨⟨hfields, hconstructors⟩, hmethods⟩ := h
  have hfields : (c.fields.map (·.varied v)).map (Field.bound (.of declared c)) =
      (c.fields.map (Field.bound (.of declared c))).map (·.varied v.known) := by
    rw [List.map_map, List.map_map]
    refine List.map_congr_left fun f hf => Field.bound_varied fun e he => ?_
    exact hfields f hf _ (List.mem_map_of_mem (Option.mem_toList.mpr he))
  have hconstructors :
      (c.constructors.map (·.varied v)).map (Constructor.bound (.of declared c)) =
        (c.constructors.map (Constructor.bound (.of declared c))).map (·.varied v.known) := by
    rw [List.map_map, List.map_map]
    exact List.map_congr_left fun x hx => Constructor.bound_varied (hconstructors x hx)
  have hmethods : (c.methods.map (·.varied v)).map (Method.bound (.of declared c)) =
      (c.methods.map (Method.bound (.of declared c))).map (·.varied v.known) := by
    rw [List.map_map, List.map_map]
    exact List.map_congr_left fun m hm => Method.bound_varied (hmethods m hm)
  rw [bound_eq, context_varied, bound_eq]
  simp only [CompiledClass.varied, hfields, hconstructors, hmethods]

end CompiledClass

/-! ### Modules -/

namespace CompiledModule

/-- The classes that are visited are bound, in the module and in the one that is varied. -/
theorem resolve_varied {m : CompiledModule} (h : ∀ c ∈ m.classes, c.Fits v) :
    (m.varied v).resolve.2 = m.resolve.2 ∧
      ∀ i : Nat, (m.varied v).resolve.1.classes[i]? = m.resolve.1.classes[i]?.map
        fun c : CompiledClass => c.varied (if m.Visits i then v.known else v) := by
  have hnames : (m.varied v).classNames = m.classNames := by
    rw [classNames, CompiledModule.varied, List.map_map]
    rfl
  have hfaults : ∀ c ∈ m.classes, (c.varied v).faults m.classNames = c.faults m.classNames :=
    fun c hc => (h c hc).faults_varied m.classNames
  constructor
  · show (resolveClasses (m.varied v).classNames _).2 = (resolveClasses m.classNames _).2
    rw [resolveClasses_failure, resolveClasses_failure, hnames, CompiledModule.varied,
      List.flatMap_map, List.flatMap_congr hfaults]
  · intro i
    have hclasses (m : CompiledModule) : m.resolve.1.classes[i]? =
        m.classes[i]?.map fun c => if m.Visits i then c.bound m.classNames else c :=
      resolveClasses_getElem? m.classNames m.classes i
    have hvisits : (m.varied v).Visits i ↔ m.Visits i := by
      rw [Visits, Visits, hnames, CompiledModule.varied, ← List.map_take, List.forall_mem_map]
      exact forall₂_congr fun d hd => by rw [hfaults d (List.mem_of_mem_take hd)]
    have hget : (m.varied v).classes[i]? = m.classes[i]?.map (·.varied v) := List.getElem?_map
    rw [hclasses, hclasses, hnames, hget]
    simp only [hvisits]
    -- the faults are the same, so the same classes are visited
    cases hc : m.classes[i]? with
    | none => rfl
    | some c =>
      have hc := (h c (List.mem_of_getElem? hc)).bound_varied m.classNames
      by_cases hi : m.Visits i
      · simp [hi, hc]
      · simp [hi]

/-- Braces that fit change nothing but the code that they stand in: all variables, inside of the
braces and outside, have the same origins, all other blocks and all methods have the same names, and
the module has the same fault. -/
theorem resolve_braces {m : CompiledModule} (h : ∀ c ∈ m.classes, c.Fits v) :
    (m.varied v).resolve.2 = m.resolve.2 ∧
      ∀ i c, m.Visits i → m.resolve.1.classes[i]? = some c →
        (m.varied v).resolve.1.classes[i]? = some (c.varied v.known) := by
  obtain ⟨hfailure, hclasses⟩ := resolve_varied h
  refine ⟨hfailure, fun i c hi hc => ?_⟩
  rw [hclasses, hc, Option.map_some, if_pos hi]

/-- A field that is tested, and used in a branch and after it. -/
def testedField : CompiledModule :=
  let x : Expression := ⟨.variableRef "x" none none, .unwritten, none⟩
  withCode ⟨.block [⟨.branch x ⟨.expression x, ⟨7, 8⟩⟩ .missing, .unwritten⟩,
    ⟨.expression x, .unwritten⟩] none, .unwritten⟩

/-- Braces around the use in the branch. -/
def bracesAroundUse : Variation where
  braces span := if span = ⟨7, 8⟩ then some ⟨6, 9⟩ else none

theorem fits_bracesAroundUse : ∀ c ∈ testedField.classes, c.Fits bracesAroundUse := by
  let x : Expression := ⟨.variableRef "x" none none, .unwritten, none⟩
  have hcode {p : Part} (hp : p.takesBraces = false)
      (h : ∀ q ∈ p.inner, (Piece.code q).Everywhere (Part.Fits bracesAroundUse)) :
      (Piece.code p).Everywhere (Part.Fits bracesAroundUse) :=
    .code (Part.fits_of_takesBraces_eq_false hp) h
  have hx : (Piece.code (.expression x)).Everywhere (Part.Fits bracesAroundUse) :=
    hcode rfl (List.forall_mem_nil _)
  have huse (span : Span) :
      (Piece.code (.statement ⟨.expression x, span⟩)).Everywhere (Part.Fits bracesAroundUse) :=
    hcode rfl (List.forall_mem_singleton.mpr hx)
  have hmissing : (Piece.code (.statement .missing)).Everywhere (Part.Fits bracesAroundUse) :=
    hcode rfl (List.forall_mem_nil _)
  have hbranch : (Piece.code (.statement
      ⟨.branch x ⟨.expression x, ⟨7, 8⟩⟩ .missing, .unwritten⟩)).Everywhere
        (Part.Fits bracesAroundUse) := by
    refine .code (fun _ s hs hbraces => ?_) (List.forall_mem_cons.mpr ⟨hx,
      List.forall_mem_cons.mpr ⟨huse _, List.forall_mem_singleton.mpr hmissing⟩⟩)
    simp only [Part.inner, Part.children, StatementNode.children, List.mem_cons,
      List.not_mem_nil, or_false, reduceCtorEq, false_or, Part.statement.injEq] at hs
    rcases hs with rfl | rfl
    · have hnone : (Part.expression x).declares = [] := by
        rw [Part.declares_eq]
        rfl
      rw [Part.declares_eq]
      show [((none : Option Enclosure), Part.expression x)].flatMap (fun q => q.2.declares) ++
        [] = []
      rw [List.append_nil, List.flatMap_singleton, hnone]
    · cases hbraces
  refine List.forall_mem_singleton.mpr (List.forall_mem_cons.mpr
    ⟨hcode rfl (List.forall_mem_singleton.mpr hx), List.forall_mem_singleton.mpr (hcode rfl ?_)⟩)
  exact List.forall_mem_cons.mpr ⟨hbranch, List.forall_mem_singleton.mpr (huse _)⟩

theorem resolve_braces_testedField :
    (testedField.varied bracesAroundUse).codeTexts =
        [["return x", "\x7b if (x) \x7b x \x7d; x \x7d"]] ∧
      ∃ c, testedField.resolve.1.classes[0]? = some c ∧
        (testedField.varied bracesAroundUse).resolve.1.classes[0]? =
          some (c.varied bracesAroundUse.known) := by
  obtain ⟨c, hc⟩ : ∃ c, testedField.resolve.1.classes[0]? = some c := ⟨_, rfl⟩
  have hvaried := (resolve_braces fits_bracesAroundUse).2 0 c (List.forall_mem_nil _) hc
  exact ⟨by decide +kernel, c, hc, hvaried⟩

/-- A variable that is declared in a branch, and a use after it. -/
def declaringBranch : String := "if (c) def x = 1\nx"

/-- Braces around the declaration. -/
def bracesAroundDeclaration : Variation where
  braces span := if span = ⟨7, 17⟩ then some ⟨7, 17⟩ else none

/-- In resolved code of two statements of which the second one is a variable: the origin of the
variable, and the names that the code declares. -/
def secondVariable? : Statement → Option (Origin × List String)
  | ⟨.block [_, ⟨.expression ⟨.variableRef _ _ (some origin), _, _⟩, _⟩] (some names), _⟩ =>
    some (origin, names)
  | _ => none

/-- The same of all methods with such code. -/
def secondVariables (m : CompiledModule) : List (Origin × List String) :=
  m.classes.flatMap fun c => c.methods.filterMap fun x => x.code.bind secondVariable?

/-- Without braces the variable behind the branch is the one that is declared in it. -/
theorem resolve_braces_declaringBranch :
    ∃ s m, Script.parse declaringBranch = .ok s ∧ ofScript "Script1" s = .ok m ∧
      m.resolve.2 = none ∧
      (m.varied bracesAroundDeclaration).codeTexts.map (·.getLast?) =
        [some "\x7b if (c) \x7b def x = 1 \x7d; x \x7d"] ∧
      m.resolve.1.secondVariables = [(.localVariable, ["x"])] ∧
      (m.varied bracesAroundDeclaration).resolve.1.secondVariables = [(.dynamic, [])] := by
  obtain ⟨s, m, hs, hm, hcheck⟩ := exists_of_modulePasses
    (fun m => m.resolve.2 = none ∧
      (m.varied bracesAroundDeclaration).codeTexts.map (·.getLast?) =
        [some "\x7b if (c) \x7b def x = 1 \x7d; x \x7d"] ∧
      m.resolve.1.secondVariables = [(.localVariable, ["x"])] ∧
      (m.varied bracesAroundDeclaration).resolve.1.secondVariables = [(.dynamic, [])])
    declaringBranch (by decide +kernel)
  exact ⟨s, m, hs, hm, of_decide_eq_true hcheck⟩

end CompiledModule

end ScriptOutline
