/-
ScriptOutline/Proofs/Settled.lean

Code in which all names are settled: every variable has an origin, and every class name, cast and
new object a class (`Part.Settled`).  What counts is the code that is shown, which is another
walk than that of the resolution of names: it goes to what is declared, and does not go to the
default values of parameters.

Binding settles the code that it visits, if nothing is wrong with it (`Part.allSettled_bound`).
Every part that is shown has been visited then, except what is declared, and that has been bound
to the variable that it is (`Part.forall_children_bound`).  Later phases add members whose code is
settled as it is made, and types, which change no name.  So from semantic analysis on all code of
a module is settled (`Compilation.compile_settled`).
-/
import ScriptOutline.Proofs.Forest
import ScriptOutline.Proofs.Passage

namespace ScriptOutline

/-! ### Settled code -/

/-- The names in a piece of code itself are settled. -/
def Part.Settled : Part → Prop
  | .expression ⟨.variableRef _ _ origin, _, _⟩ => origin.isSome
  | .expression ⟨.classRef type, _, _⟩ => type.resolved.isSome
  | .expression ⟨.cast target _ _, _, _⟩ => target.resolved.isSome
  | .expression ⟨.construct target _ none, _, _⟩ => target.resolved.isSome
  | _ => True

/-- The names in all code that is shown are settled. -/
def Part.AllSettled (p : Part) : Prop := ∀ q ∈ p.walk, q.Settled

theorem Part.allSettled_iff (p : Part) :
    p.AllSettled ↔ p.Settled ∧ ∀ q ∈ p.children, q.AllSettled := by
  simp only [AllSettled, p.walk_eq, List.forall_mem_cons, List.forall_mem_flatMap]

/-- The names in all code of a list are settled. -/
def AllSettled (ps : List Part) : Prop := ∀ p ∈ ps, p.AllSettled

theorem AllSettled.nil : AllSettled [] := List.forall_mem_nil _

theorem AllSettled.cons {p : Part} {ps : List Part} (hp : p.AllSettled) (hps : AllSettled ps) :
    AllSettled (p :: ps) :=
  List.forall_mem_cons.mpr ⟨hp, hps⟩

theorem Part.AllSettled.of_parts {p : Part} (hp : p.Settled)
    (h : ScriptOutline.AllSettled p.children) : p.AllSettled :=
  p.allSettled_iff.mpr ⟨hp, h⟩

theorem Part.allSettled_leaf {p : Part} (hp : p.Settled) (h : p.children = []) : p.AllSettled :=
  .of_parts hp (h ▸ .nil)

/-! ### Binding -/

variable {k : ClassContext} {inStatic : Bool}

theorem length_boundExpressions (env : Scope) (es : List Expression) :
    (boundExpressions k inStatic env es).length = es.length := by
  induction es generalizing env with
  | nil => rfl
  | cons e es ih => exact congrArg (· + 1) (ih _)

/-- What holds of every part, however it is bound, holds of the parts that are bound one after the
other. -/
theorem forall_mem_boundParts {P : Part → Prop} {env : Scope} {ps : List Part}
    (h : ∀ p ∈ ps, ∀ env, P (p.bound k inStatic env)) :
    ∀ q ∈ boundParts k inStatic env ps, P q := by
  induction ps generalizing env with
  | nil => exact List.forall_mem_nil _
  | cons p ps ih =>
    obtain ⟨hp, hps⟩ := List.forall_mem_cons.mp h
    exact List.forall_mem_cons.mpr ⟨hp env, ih hps⟩

section Children

variable {P : Part → Prop} (env : Scope)

theorem forall_mem_boundExpressions {es : List Expression}
    (h : ∀ e ∈ es, ∀ env, P (.expression (e.bound k inStatic env))) :
    ∀ e ∈ boundExpressions k inStatic env es, P (.expression e) := by
  have hparts : ∀ q ∈ (boundExpressions k inStatic env es).map Part.expression, P q := by
    rw [boundExpressions_parts]
    exact forall_mem_boundParts (List.forall_mem_map.mpr h)
  exact List.forall_mem_map.mp hparts

/-- The parts of a bound expression that are shown are parts that are analysed, each one bound, and
what a declaration declares. -/
theorem ExpressionNode.forall_children_bound {node : ExpressionNode}
    (hdeclared : ∀ target value, node = .declaration target value →
      P (.expression (boundDeclared k target)))
    (h : ∀ x ∈ node.analysed, ∀ env, P (x.2.bound k inStatic env)) :
    ∀ q ∈ (node.bound k inStatic env).children, P q := by
  cases node
  case call object method arguments safe implicitReceiver =>
    simp only [analysed, children, List.map_cons, List.map_nil, List.forall_mem_cons,
      Part.bound] at h
    obtain ⟨hobject, harguments, -⟩ := h
    rcases bound_call_cases k inStatic env object method arguments safe implicitReceiver with
      ⟨-, owner, hcall⟩ | hcall
    · simp [hcall, children, harguments]
    · simp [hcall, children, hobject, harguments]
  case declaration target value =>
    simp only [analysed, List.forall_mem_cons, Part.bound] at h
    simp [ExpressionNode.bound, children, h, hdeclared target value rfl]
  case sequence form items =>
    simp only [analysed, children, List.forall_mem_map] at h
    exact List.forall_mem_map.mpr (forall_mem_boundExpressions env h)
  case array elementType elements sizes =>
    simp only [analysed, children, List.forall_mem_map, List.forall_mem_append] at h
    refine List.forall_mem_map.mpr (List.forall_mem_append.mpr ⟨?_, ?_⟩)
    · exact forall_mem_boundExpressions env h.1
    · exact forall_mem_boundExpressions _ h.2
  case interpolation fragments values =>
    simp only [analysed, List.forall_mem_map, List.forall_mem_append] at h
    refine List.forall_mem_map.mpr fun e he => ?_
    rcases mem_interleave he with he | he
    · exact forall_mem_boundExpressions env h.1 e he
    · exact forall_mem_boundExpressions _ h.2 e he
  all_goals
    simp only [Part.bound, ExpressionNode.bound, analysed, children, List.map_cons, List.map_nil,
      List.forall_mem_cons] at h ⊢
    simp [h]

theorem StatementNode.forall_children_bound {node : StatementNode}
    (h : ∀ x ∈ node.analysed, ∀ env, P (x.2.bound k inStatic env)) :
    ∀ q ∈ (node.bound k inStatic env).children, P q := by
  cases node
  case block statements declared =>
    simp only [analysed, children, List.forall_mem_map] at h
    rw [StatementNode.bound, children, boundStatements_parts]
    exact forall_mem_boundParts (List.forall_mem_map.mpr h)
  case tryCatch body catches finallyBlock =>
    simp only [analysed, children, List.map_append, List.map_cons, List.map_nil, List.cons_append,
      List.forall_mem_append, List.forall_mem_cons, Part.bound, List.forall_mem_map] at h
    obtain ⟨hbody, hcatches, hfinally, -⟩ := h
    simp only [StatementNode.bound, children, List.cons_append, List.forall_mem_cons,
      List.forall_mem_append, boundCatches_parts]
    refine ⟨hbody _, forall_mem_boundParts (List.forall_mem_map.mpr hcatches), hfinally _,
      List.forall_mem_nil _⟩
  case switch subject cases defaultBlock =>
    simp only [analysed, children, List.map_append, List.map_cons, List.map_nil, List.cons_append,
      List.forall_mem_append, List.forall_mem_cons, Part.bound, List.forall_mem_map] at h
    obtain ⟨hsubject, hcases, hdefault, -⟩ := h
    simp only [StatementNode.bound, children, List.cons_append, List.forall_mem_cons,
      List.forall_mem_append, boundCases_parts]
    refine ⟨hsubject _, forall_mem_boundParts (List.forall_mem_map.mpr hcases), hdefault _,
      List.forall_mem_nil _⟩
  all_goals
    simp only [Part.bound, StatementNode.bound, analysed, children, List.map_cons, List.map_nil,
      List.forall_mem_cons] at h ⊢
    simp [h]

theorem Part.forall_children_bound {p : Part}
    (hdeclared : ∀ target value span inferred, p = .expression ⟨.declaration target value, span,
      inferred⟩ → P (.expression (boundDeclared k target)))
    (h : ∀ x ∈ p.analysed, ∀ env, P (x.2.bound k inStatic env)) :
    ∀ q ∈ (p.bound k inStatic env).children, P q := by
  rcases p with ⟨node, span, inferred⟩ | ⟨node, span⟩ | ⟨binding, code, span⟩ |
    ⟨subject, code, span⟩
  · refine node.forall_children_bound env (fun target value hnode => ?_) h
    exact hdeclared target value span inferred (by rw [hnode])
  · exact node.forall_children_bound env h
  · simp only [analysed, List.forall_mem_cons, Part.bound] at h
    simp [Part.bound, CatchClause.bound, children, h]
  · simp only [analysed, List.forall_mem_cons, Part.bound] at h
    simp [Part.bound, CaseClause.bound, children, h]

end Children

/-- What is declared is bound to a local variable. -/
theorem allSettled_boundDeclared {target : Expression} (h : target.variableName?.isSome = true) :
    (Part.expression (boundDeclared k target)).AllSettled := by
  obtain ⟨name, declared, origin, span, inferred, rfl⟩ :=
    Expression.eq_variableRef_of_variableName? h
  rw [Part.allSettled_iff]
  exact ⟨rfl, List.forall_mem_nil _⟩

/-- A class that nothing is wrong with is known. -/
theorem TypeRef.isSome_resolve {declared : List String} {t : TypeRef} {span : Span}
    (h : unknownClass? declared t span = none) : (t.resolve declared).resolved.isSome = true := by
  rw [unknownClass?] at h
  split at h
  · cases h
  · next hknown =>
    rw [← Option.ne_none_iff_isSome]
    exact fun hnone => hknown ((Visit.resolveName_eq_none_iff declared t.name).mp hnone)

/-- Code that nothing is wrong with is settled once it is bound. -/
theorem Part.settled_bound {p : Part} {around : List Enclosure} (env : Scope)
    (h : p.fault? k.declared around = none) : (p.bound k inStatic env).Settled := by
  rcases p with ⟨node, span, inferred⟩ | ⟨node, span⟩ | c | c
  · cases node
    case call =>
      exact ExpressionNode.bound_call_induction
        (P := fun node => (Part.expression ⟨node, span, inferred⟩).Settled)
        (fun _ _ _ _ _ => trivial) (fun _ _ _ => trivial) k inStatic env _ _ _ _ _
    case construct target arguments special =>
      cases special with
      | none => exact TypeRef.isSome_resolve h
      | some special => trivial
    case cast target operand coerce => exact TypeRef.isSome_resolve h
    case classRef type => exact TypeRef.isSome_resolve h
    case variableRef name declared origin => rfl
    all_goals trivial
  · trivial
  · trivial
  · trivial

theorem Part.allSettled_bound (p : Part) (env : Scope) (around : List Enclosure) (h : p.Tidy)
    (hfaults : p.faults k.declared around = []) : (p.bound k inStatic env).AllSettled := by
  rw [p.faults_eq, List.append_eq_nil_iff, Option.toList_eq_nil_iff, List.flatMap_eq_nil_iff]
    at hfaults
  obtain ⟨hown, hparts⟩ := hfaults
  rw [Part.allSettled_iff]
  refine ⟨Part.settled_bound env hown, Part.forall_children_bound env ?_ fun x hx env => ?_⟩
  · rintro target value span inferred rfl
    exact allSettled_boundDeclared h.regular.1
  · exact x.2.allSettled_bound env _ (h.analysed hx) (hparts x hx)
termination_by sizeOf p
decreasing_by exact Part.sizeOf_lt_of_mem_analysed hx

/-! ### Types -/

/-- A part with types for all expressions in it. -/
def Part.infer : Part → Part
  | .expression e => .expression e.infer
  | .statement s => .statement s.infer
  | .catchClause c => .catchClause c.infer
  | .caseClause c => .caseClause c.infer

theorem inferExpressions_eq_map (es : List Expression) :
    inferExpressions es = es.map Expression.infer := by
  induction es with
  | nil => rfl
  | cons e es ih => rw [inferExpressions, List.map_cons, ih]

theorem inferCatches_eq_map (cs : List CatchClause) :
    inferCatches cs = cs.map CatchClause.infer := by
  induction cs with
  | nil => rfl
  | cons c cs ih => rw [inferCatches, List.map_cons, ih]

theorem inferCases_eq_map (cs : List CaseClause) : inferCases cs = cs.map CaseClause.infer := by
  induction cs with
  | nil => rfl
  | cons c cs ih => rw [inferCases, List.map_cons, ih]

theorem Part.children_infer (p : Part) : p.infer.children = p.children.map Part.infer := by
  rcases p with ⟨node, span, inferred⟩ | ⟨node, span⟩ | c | c
  · cases node
    case sequence form items =>
      simp [infer, Expression.infer, ExpressionNode.infer, children, ExpressionNode.children,
        inferExpressions_eq_map, Function.comp_def]
    case array elementType elements sizes =>
      simp [infer, Expression.infer, ExpressionNode.infer, children, ExpressionNode.children,
        inferExpressions_eq_map, Function.comp_def]
    case interpolation fragments values =>
      simp [infer, Expression.infer, ExpressionNode.infer, children, ExpressionNode.children,
        inferExpressions_eq_map, ← map_interleave, Function.comp_def]
    all_goals rfl
  · cases node
    case block statements declared =>
      simp [infer, Statement.infer, StatementNode.infer, children, StatementNode.children,
        inferStatements_eq_map, Function.comp_def]
    case tryCatch body catches finallyBlock =>
      simp [infer, Statement.infer, StatementNode.infer, children, StatementNode.children,
        inferCatches_eq_map, Function.comp_def]
    case switch subject cases defaultBlock =>
      simp [infer, Statement.infer, StatementNode.infer, children, StatementNode.children,
        inferCases_eq_map, Function.comp_def]
    all_goals rfl
  · cases c
    rfl
  · cases c
    rfl

theorem Part.settled_infer (p : Part) : p.infer.Settled ↔ p.Settled := by
  rcases p with ⟨node, span, inferred⟩ | ⟨node, span⟩ | c | c
  · cases node
    case construct target arguments special => cases special <;> rfl
    all_goals rfl
  all_goals rfl

/-- Types change no name. -/
theorem Part.AllSettled.infer (p : Part) (h : p.AllSettled) : p.infer.AllSettled := by
  obtain ⟨hp, hparts⟩ := p.allSettled_iff.mp h
  rw [Part.allSettled_iff, p.children_infer, p.settled_infer]
  refine ⟨hp, List.forall_mem_map.mpr fun q hq => ?_⟩
  exact Part.AllSettled.infer q (hparts q hq)
termination_by sizeOf p
decreasing_by exact Part.sizeOf_lt_of_mem_children hq

/-! ### Classes -/

namespace CompiledClass

/-- All code of the members that is shown is settled. -/
structure Settled (c : CompiledClass) : Prop where
  field : ∀ f ∈ c.fields, ∀ e ∈ f.initial, (Part.expression e).AllSettled
  constructor : ∀ x ∈ c.constructors, ∀ s ∈ x.code, (Part.statement s).AllSettled
  method : ∀ m ∈ c.methods, ∀ s ∈ m.code, (Part.statement s).AllSettled

variable {c : CompiledClass}

/-- The code of a member without faults. -/
theorem settled_memberCode {k : ClassContext} {ps : List Parameter} {code : Option Statement}
    (inStatic : Bool) (env : Scope) (h : AllTidy (memberCode ps code))
    (hfaults : ∀ p ∈ memberCode ps code, p.faults k.declared [] = []) :
    ∀ s ∈ code.map (·.bound k inStatic env), (Part.statement s).AllSettled := by
  intro s hs
  obtain ⟨t, rfl, rfl⟩ := Option.map_eq_some_iff.mp hs
  have ht : Part.statement t ∈ memberCode ps (some t) := List.mem_append_right _ (.head _)
  exact (Part.statement t).allSettled_bound env [] (h _ ht) (hfaults _ ht)

/-- A class without faults is settled once it is bound. -/
theorem settled_bound {declared : List String} (h : c.Tidy) (hfaults : c.faults declared = []) :
    (c.bound declared).Settled := by
  rw [faults, List.flatMap_eq_nil_iff, analysedCode, List.forall_mem_append,
    List.forall_mem_append] at hfaults
  simp only [List.forall_mem_flatMap] at hfaults
  obtain ⟨⟨hfields, hconstructors⟩, hmethods⟩ := hfaults
  rw [bound_eq]
  refine ⟨List.forall_mem_map.mpr fun f hf e he => ?_, List.forall_mem_map.mpr fun x hx => ?_,
    List.forall_mem_map.mpr fun m hm => ?_⟩
  · obtain ⟨e, hinitial, rfl⟩ := Option.map_eq_some_iff.mp he
    have hmem : Part.expression e ∈ f.initial.toList.map Part.expression :=
      List.mem_map_of_mem (Option.mem_toList.mpr hinitial)
    exact (Part.expression e).allSettled_bound [] [] (h.field hf e hinitial) (hfields f hf _ hmem)
  · exact settled_memberCode (k := .of declared c) _ _ (h.constructor hx) (hconstructors x hx)
  · exact settled_memberCode (k := .of declared c) _ _ (h.method hm) (hmethods m hm)

theorem settled_missingAccessors (p : Property) (owner : String) (methods : List Method) :
    ∀ m ∈ p.missingAccessors owner methods, ∀ s ∈ m.code, (Part.statement s).AllSettled := by
  have hbacking : (Part.expression (p.backing owner)).AllSettled := Part.allSettled_leaf trivial rfl
  have hgetter : ∀ s ∈ (p.getterMethod owner).code, (Part.statement s).AllSettled := by
    rintro _ ⟨⟩
    exact .of_parts trivial (.cons (.of_parts trivial (.cons hbacking .nil)) .nil)
  have hsetter : ∀ s ∈ (p.setterMethod owner).code, (Part.statement s).AllSettled := by
    rintro _ ⟨⟩
    -- the value that is set is a parameter
    refine .of_parts trivial (.cons (.of_parts trivial (.cons ?_ .nil)) .nil)
    exact .of_parts trivial (.cons hbacking (.cons (Part.allSettled_leaf rfl rfl) .nil))
  exact Property.forall_mem_missingAccessors hgetter hsetter methods

theorem Settled.canonical (h : c.Settled) : c.canonical.Settled where
  field := h.field
  constructor := by
    rw [CompiledClass.canonical]
    dsimp only
    split
    · refine List.forall_mem_singleton.mpr ?_
      rintro _ ⟨⟩
      exact Part.allSettled_leaf trivial rfl
    · exact h.constructor
  method := by
    refine List.forall_mem_append.mpr ⟨h.method, List.forall_mem_flatMap.mpr fun p _ => ?_⟩
    exact settled_missingAccessors p c.name c.methods

theorem Settled.infer (h : c.Settled) : c.infer.Settled := by
  refine ⟨List.forall_mem_map.mpr fun f hf e he => ?_, List.forall_mem_map.mpr fun x hx s hs => ?_,
    List.forall_mem_map.mpr fun m hm s hs => ?_⟩
  · obtain ⟨e, hinitial, rfl⟩ := Option.map_eq_some_iff.mp he
    exact Part.AllSettled.infer (.expression e) (h.field f hf e hinitial)
  · obtain ⟨s, hcode, rfl⟩ := Option.map_eq_some_iff.mp hs
    exact Part.AllSettled.infer (.statement s) (h.constructor x hx s hcode)
  · obtain ⟨s, hcode, rfl⟩ := Option.map_eq_some_iff.mp hs
    exact Part.AllSettled.infer (.statement s) (h.method m hm s hcode)

theorem settled_metaClassMethod (className : String) :
    ∀ s ∈ (metaClassMethod className).code, (Part.statement s).AllSettled := by
  rintro _ ⟨⟩
  exact .of_parts trivial (.cons (.of_parts trivial
    (.cons (Part.allSettled_leaf trivial rfl) .nil)) .nil)

theorem Settled.emit (h : c.Settled) : c.emit.Settled := by
  rw [CompiledClass.emit]
  split
  · exact h
  · refine ⟨h.field, h.constructor, ?_⟩
    dsimp only
    split
    · exact h.method
    · refine List.forall_mem_append.mpr ⟨h.method, ?_⟩
      exact List.forall_mem_singleton.mpr (settled_metaClassMethod c.name)

end CompiledClass

/-! ### Compilations -/

namespace Compilation

variable {α : Type} {c : Compilation α} {name source : String}

/-- There is a module, and all its code that is shown is settled. -/
def Settled (c : Compilation α) : Prop :=
  ∃ m, c.module = some m ∧ ∀ k ∈ m.classes, k.Settled

/-- From semantic analysis on, everything is settled. -/
theorem compile_settled {phase : Phase} {answers : List α} (hphase : .semanticAnalysis ≤ phase)
    (h : (new name source : Compilation α).compile phase = (c, .ok answers)) : c.Settled := by
  obtain ⟨script, m₀, m, hscript, hm₀, hf, hm, hclasses⟩ := compile_classes hphase h
  have htidy : ∀ k ∈ m₀.classes, k.Tidy :=
    CompiledModule.ofScript_tidy (Script.parse_tidy hscript) hm₀
  refine ⟨m, hm, ?_⟩
  rw [hclasses]
  refine List.forall_mem_map.mpr fun k hk => ?_
  have hbound : (k.bound m₀.classNames).Settled :=
    CompiledClass.settled_bound (htidy k hk) (CompiledModule.faults_eq_nil hf k hk)
  exact CompiledClass.completedTo_induction (fun _ h => h.canonical) (fun _ h => h.infer)
    (fun _ h => h.emit) hbound phase

end Compilation

end ScriptOutline
