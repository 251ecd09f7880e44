/-
ScriptOutline/Proofs/Inference.lean

The types that are told without running anything.  They go upward: the parts of an expression get
their types first, and then a rule tells the type of the expression from its kind and from the
types of its direct parts (`ExpressionNode.typeOf`).  So a part has its last type when the rule
that looks at it is used, and one pass is enough (`CompiledModule.infer_fixpoint`):

* a second pass changes nothing;
* the rule of an expression, used once more on the parts as they are then, tells no type or the
  type that is recorded already;
* nothing but recorded types is changed, and those only where the pass goes, in the initial values
  of fields and in the code of constructors and methods (`CompiledModule.untyped`);
* the pass takes no type away.

Each of these is a fact about single parts, by induction over what is directly inside a part
(`Part.inner`), and about a module because code is all that a pass goes into.  The two copies of
the operand of `a ?: b` are parts like others here, and the default values of the parameters of a
closure are never visited.
-/
import ScriptOutline.Proofs.Everywhere

namespace ScriptOutline

/-! ### Code without types -/

mutual

/-- An expression without the types that a pass records in it. -/
def Expression.untyped : Expression → Expression
  | ⟨node, span, _⟩ => ⟨node.untyped, span, none⟩

def ExpressionNode.untyped : ExpressionNode → ExpressionNode
  | .call object method arguments safe implicitReceiver =>
    .call object.untyped method arguments.untyped safe implicitReceiver
  | .staticCall owner method arguments => .staticCall owner method arguments.untyped
  | .construct target arguments special => .construct target arguments.untyped special
  | .binary left operation right => .binary left.untyped operation right.untyped
  | .declaration target value => .declaration target.untyped value.untyped
  | .ternary condition whenTrue whenFalse =>
    .ternary condition.untyped whenTrue.untyped whenFalse.untyped
  | .elvis condition value otherwise =>
    .elvis condition.untyped value.untyped otherwise.untyped
  | .step side operation operand => .step side operation operand.untyped
  | .wrap wrapper operand => .wrap wrapper operand.untyped
  | .closure parameters code => .closure parameters code.untyped
  | .sequence form items => .sequence form (untypedExpressions items)
  | .array elementType elements sizes =>
    .array elementType (untypedExpressions elements) (untypedExpressions sizes)
  | .mapEntry key value => .mapEntry key.untyped value.untyped
  | .range first last inclusive => .range first.untyped last.untyped inclusive
  | .methodPointer object method => .methodPointer object.untyped method
  | .cast target operand coerce => .cast target operand.untyped coerce
  | .constant value => .constant value
  | .classRef type => .classRef type
  | .variableRef name declared origin => .variableRef name declared origin
  | .access object name accessor => .access object.untyped name accessor
  | .field name owner => .field name owner
  | .interpolation fragments values =>
    .interpolation (untypedExpressions fragments) (untypedExpressions values)
  | .bytecode instructions => .bytecode instructions
  | .empty => .empty

def untypedExpressions : List Expression → List Expression
  | [] => []
  | e :: rest => e.untyped :: untypedExpressions rest

/-- A statement without the types of the expressions in it. -/
def Statement.untyped : Statement → Statement
  | ⟨node, span⟩ => ⟨node.untyped, span⟩

def StatementNode.untyped : StatementNode → StatementNode
  | .block statements declared => .block (untypedStatements statements) declared
  | .expression value => .expression value.untyped
  | .ret value => .ret value.untyped
  | .assertion condition message => .assertion condition.untyped message.untyped
  | .loop binding collection body => .loop binding collection.untyped body.untyped
  | .whileLoop condition body => .whileLoop condition.untyped body.untyped
  | .doWhile body condition => .doWhile body.untyped condition.untyped
  | .branch condition whenTrue whenFalse =>
    .branch condition.untyped whenTrue.untyped whenFalse.untyped
  | .tryCatch body catches finallyBlock =>
    .tryCatch body.untyped (untypedCatches catches) finallyBlock.untyped
  | .switch subject cases defaultBlock =>
    .switch subject.untyped (untypedCases cases) defaultBlock.untyped
  | .breakLoop => .breakLoop
  | .continueLoop => .continueLoop
  | .synchronized lock code => .synchronized lock.untyped code.untyped
  | .throw value => .throw value.untyped
  | .empty => .empty

def untypedStatements : List Statement → List Statement
  | [] => []
  | s :: rest => s.untyped :: untypedStatements rest

def CatchClause.untyped : CatchClause → CatchClause
  | ⟨binding, code, span⟩ => ⟨binding, code.untyped, span⟩

def untypedCatches : List CatchClause → List CatchClause
  | [] => []
  | c :: rest => c.untyped :: untypedCatches rest

def CaseClause.untyped : CaseClause → CaseClause
  | ⟨subject, code, span⟩ => ⟨subject.untyped, code.untyped, span⟩

def untypedCases : List CaseClause → List CaseClause
  | [] => []
  | c :: rest => c.untyped :: untypedCases rest

end

/-- A part without the types of the expressions in it. -/
def Part.untyped : Part → Part
  | .expression e => .expression e.untyped
  | .statement s => .statement s.untyped
  | .catchClause c => .catchClause c.untyped
  | .caseClause c => .caseClause c.untyped

/-- The expressions stored in a part. -/
def Part.storedExpressions : Part → List Expression
  | .expression e => e.storedExpressions
  | .statement s => s.storedExpressions
  | .catchClause c => c.storedExpressions
  | .caseClause c => c.storedExpressions

/-! ### Lists of parts -/

/-- A recursion over a list that makes one item of each is a map. -/
theorem eq_map_of_recursion {α β : Type} {f : α → β} {F : List α → List β} (hnil : F [] = [])
    (hcons : ∀ x xs, F (x :: xs) = f x :: F xs) (xs : List α) : F xs = xs.map f := by
  induction xs with
  | nil => exact hnil
  | cons x xs ih => rw [hcons, List.map_cons, ih]

/-- A recursion over a list that makes a list of each item puts those lists together. -/
theorem eq_flatMap_of_recursion {α β : Type} {f : α → List β} {F : List α → List β}
    (hnil : F [] = []) (hcons : ∀ x xs, F (x :: xs) = f x ++ F xs) (xs : List α) :
    F xs = xs.flatMap f := by
  induction xs with
  | nil => exact hnil
  | cons x xs ih => rw [hcons, List.flatMap_cons, ih]

theorem untypedExpressions_eq_map :
    ∀ es, untypedExpressions es = es.map Expression.untyped :=
  eq_map_of_recursion rfl fun _ _ => rfl

theorem untypedStatements_eq_map : ∀ ss, untypedStatements ss = ss.map Statement.untyped :=
  eq_map_of_recursion rfl fun _ _ => rfl

theorem untypedCatches_eq_map : ∀ cs, untypedCatches cs = cs.map CatchClause.untyped :=
  eq_map_of_recursion rfl fun _ _ => rfl

theorem untypedCases_eq_map : ∀ cs, untypedCases cs = cs.map CaseClause.untyped :=
  eq_map_of_recursion rfl fun _ _ => rfl

theorem storedInExpressions_eq_flatMap :
    ∀ es, storedInExpressions es = es.flatMap Expression.storedExpressions :=
  eq_flatMap_of_recursion rfl fun _ _ => rfl

theorem storedInStatements_eq_flatMap :
    ∀ ss, storedInStatements ss = ss.flatMap Statement.storedExpressions :=
  eq_flatMap_of_recursion rfl fun _ _ => rfl

theorem storedInCatches_eq_flatMap :
    ∀ cs, storedInCatches cs = cs.flatMap CatchClause.storedExpressions :=
  eq_flatMap_of_recursion rfl fun _ _ => rfl

theorem storedInCases_eq_flatMap :
    ∀ cs, storedInCases cs = cs.flatMap CaseClause.storedExpressions :=
  eq_flatMap_of_recursion rfl fun _ _ => rfl

/-! ### One pass is enough -/

theorem ExpressionNode.infer_infer {n : ExpressionNode}
    (h : ∀ q ∈ n.inner, q.infer.infer = q.infer) : n.infer.infer = n.infer := by
  cases n
  case sequence | array | interpolation =>
    simp only [inner, children, List.map_append, List.forall_mem_append, List.forall_mem_map,
      Part.infer, Part.expression.injEq] at h
    simp only [infer, inferExpressions_eq_map, List.map_map]
    congr 1 <;> exact List.map_congr_left (by simp_all)
  case closure parameters code =>
    have hcode := h (.statement code) (List.mem_append_right _ (.head _))
    simpa [infer, Part.infer] using hcode
  all_goals simp_all [inner, children, Part.infer, infer]

theorem StatementNode.infer_infer {n : StatementNode}
    (h : ∀ q ∈ n.children, q.infer.infer = q.infer) : n.infer.infer = n.infer := by
  cases n
  case block statements declared =>
    have hstatements : ∀ s ∈ statements, s.infer.infer = s.infer := fun s hs =>
      Part.statement.inj (h _ (List.mem_map_of_mem hs))
    simp only [infer, inferStatements_eq_map, List.map_map, Function.comp_def]
    rw [List.map_congr_left hstatements]
  case tryCatch body catches finallyBlock =>
    simp only [children, List.cons_append, List.forall_mem_cons, List.forall_mem_append,
      List.forall_mem_map, Part.infer, Part.statement.injEq, Part.catchClause.injEq] at h
    obtain ⟨hbody, hcatches, hfinally, -⟩ := h
    simp only [infer, inferCatches_eq_map, List.map_map, Function.comp_def, hbody, hfinally]
    rw [List.map_congr_left hcatches]
  case switch subject cases defaultBlock =>
    simp only [children, List.cons_append, List.forall_mem_cons, List.forall_mem_append,
      List.forall_mem_map, Part.infer, Part.statement.injEq, Part.expression.injEq,
      Part.caseClause.injEq] at h
    obtain ⟨hsubject, hcases, hdefault, -⟩ := h
    simp only [infer, inferCases_eq_map, List.map_map, Function.comp_def, hsubject, hdefault]
    rw [List.map_congr_left hcases]
  all_goals simp_all [children, Part.infer, infer]

/-- The rule that told the type tells it again, since the parts have their last types. -/
theorem Part.infer_infer (p : Part) : p.infer.infer = p.infer := by
  have ih : ∀ q ∈ p.inner, q.infer.infer = q.infer := fun q _ => q.infer_infer
  rcases p with ⟨node, span, inferred⟩ | ⟨node, span⟩ | ⟨binding, code, span⟩ |
    ⟨subject, code, span⟩
  · have hnode : node.infer.infer = node.infer := node.infer_infer ih
    simp only [infer, Expression.infer, hnode, ← Option.or_assoc, Option.or_self]
  · have hnode : node.infer.infer = node.infer := node.infer_infer ih
    simp only [infer, Statement.infer, hnode]
  · simp_all [inner, children, infer, CatchClause.infer]
  · simp_all [inner, children, infer, CaseClause.infer]
termination_by sizeOf p
decreasing_by exact Part.sizeOf_lt_of_mem_inner ‹_›

/-! ### Nothing but types -/

theorem ExpressionNode.untyped_infer {n : ExpressionNode}
    (h : ∀ q ∈ n.inner, q.infer.untyped = q.untyped) : n.infer.untyped = n.untyped := by
  cases n
  case sequence | array | interpolation =>
    simp only [inner, children, List.map_append, List.forall_mem_append, List.forall_mem_map,
      Part.infer, Part.untyped, Part.expression.injEq] at h
    simp only [infer, untyped, inferExpressions_eq_map, untypedExpressions_eq_map, List.map_map]
    congr 1 <;> exact List.map_congr_left (by simp_all)
  case closure parameters code =>
    have hcode := h (.statement code) (List.mem_append_right _ (.head _))
    simpa [infer, untyped, Part.infer, Part.untyped] using hcode
  all_goals simp_all [inner, children, Part.infer, Part.untyped, infer, untyped]

theorem StatementNode.untyped_infer {n : StatementNode}
    (h : ∀ q ∈ n.children, q.infer.untyped = q.untyped) : n.infer.untyped = n.untyped := by
  cases n
  case block statements declared =>
    have hstatements : ∀ s ∈ statements, s.infer.untyped = s.untyped := fun s hs =>
      Part.statement.inj (h _ (List.mem_map_of_mem hs))
    simp only [infer, untyped, inferStatements_eq_map, untypedStatements_eq_map, List.map_map,
      Function.comp_def]
    rw [List.map_congr_left hstatements]
  case tryCatch body catches finallyBlock =>
    simp only [children, List.cons_append, List.forall_mem_cons, List.forall_mem_append,
      List.forall_mem_map, Part.infer, Part.untyped, Part.statement.injEq,
      Part.catchClause.injEq] at h
    obtain ⟨hbody, hcatches, hfinally, -⟩ := h
    simp only [infer, untyped, inferCatches_eq_map, untypedCatches_eq_map, List.map_map,
      Function.comp_def, hbody, hfinally]
    rw [List.map_congr_left hcatches]
  case switch subject cases defaultBlock =>
    simp only [children, List.cons_append, List.forall_mem_cons, List.forall_mem_append,
      List.forall_mem_map, Part.infer, Part.untyped, Part.statement.injEq, Part.expression.injEq,
      Part.caseClause.injEq] at h
    obtain ⟨hsubject, hcases, hdefault, -⟩ := h
    simp only [infer, untyped, inferCases_eq_map, untypedCases_eq_map, List.map_map,
      Function.comp_def, hsubject, hdefault]
    rw [List.map_congr_left hcases]
  all_goals simp_all [children, Part.infer, Part.untyped, infer, untyped]

theorem Part.untyped_infer (p : Part) : p.infer.untyped = p.untyped := by
  have ih : ∀ q ∈ p.inner, q.infer.untyped = q.untyped := fun q _ => q.untyped_infer
  rcases p with ⟨node, span, inferred⟩ | ⟨node, span⟩ | ⟨binding, code, span⟩ |
    ⟨subject, code, span⟩
  · have hnode : node.infer.untyped = node.untyped := node.untyped_infer ih
    simp only [infer, untyped, Expression.infer, Expression.untyped, hnode]
  · have hnode : node.infer.untyped = node.untyped := node.untyped_infer ih
    simp only [infer, untyped, Statement.infer, Statement.untyped, hnode]
  · simp_all [inner, children, infer, untyped, CatchClause.infer, CatchClause.untyped]
  · simp_all [inner, children, infer, untyped, CaseClause.infer, CaseClause.untyped]
termination_by sizeOf p
decreasing_by exact Part.sizeOf_lt_of_mem_inner ‹_›

/-! ### The expressions that are visited -/

theorem ExpressionNode.storedExpressions_infer {n : ExpressionNode}
    (h : ∀ q ∈ n.inner, q.infer.storedExpressions = q.storedExpressions.map Expression.infer) :
    n.infer.storedExpressions = n.storedExpressions.map Expression.infer := by
  have hitems (es : List Expression)
      (hes : ∀ e ∈ es, e.infer.storedExpressions = e.storedExpressions.map Expression.infer) :
      storedInExpressions (inferExpressions es) =
        (storedInExpressions es).map Expression.infer := by
    rw [inferExpressions_eq_map, storedInExpressions_eq_flatMap, storedInExpressions_eq_flatMap,
      List.flatMap_map, List.map_flatMap]
    exact List.flatMap_congr hes
  cases n
  case sequence form items => exact hitems items (List.forall_mem_map.mp h)
  case array | interpolation =>
    simp only [inner, children, List.forall_mem_map, List.forall_mem_append] at h
    rw [infer, storedExpressions, storedExpressions, List.map_append, hitems _ h.1, hitems _ h.2]
  case closure parameters code =>
    have hcode := h (.statement code) (List.mem_append_right _ (.head _))
    simpa [infer, storedExpressions, Part.infer, Part.storedExpressions] using hcode
  all_goals simp_all [inner, children, Part.infer, Part.storedExpressions, infer, storedExpressions]

theorem StatementNode.storedExpressions_infer {n : StatementNode}
    (h : ∀ q ∈ n.children, q.infer.storedExpressions = q.storedExpressions.map Expression.infer) :
    n.infer.storedExpressions = n.storedExpressions.map Expression.infer := by
  cases n
  case block statements declared =>
    simp only [children, List.forall_mem_map, Part.infer, Part.storedExpressions] at h
    simp only [infer, storedExpressions, inferStatements_eq_map, storedInStatements_eq_flatMap,
      List.flatMap_map, List.map_flatMap]
    exact List.flatMap_congr h
  case tryCatch body catches finallyBlock =>
    simp only [children, List.cons_append, List.forall_mem_cons, List.forall_mem_append,
      List.forall_mem_map, Part.infer, Part.storedExpressions] at h
    obtain ⟨hbody, hcatches, hfinally, -⟩ := h
    simp only [infer, storedExpressions, inferCatches_eq_map, storedInCatches_eq_flatMap,
      List.flatMap_map, List.map_append, List.map_flatMap, hbody, hfinally,
      List.flatMap_congr hcatches]
  case switch subject cases defaultBlock =>
    simp only [children, List.cons_append, List.forall_mem_cons, List.forall_mem_append,
      List.forall_mem_map, Part.infer, Part.storedExpressions] at h
    obtain ⟨hsubject, hcases, hdefault, -⟩ := h
    simp only [infer, storedExpressions, inferCases_eq_map, storedInCases_eq_flatMap,
      List.flatMap_map, List.map_append, List.map_flatMap, hsubject, hdefault,
      List.flatMap_congr hcases]
  all_goals simp_all [children, Part.infer, Part.storedExpressions, infer, storedExpressions]

/-- What is visited in a part with types is what was visited before, each expression with its
types. -/
theorem Part.storedExpressions_infer (p : Part) :
    p.infer.storedExpressions = p.storedExpressions.map Expression.infer := by
  have ih : ∀ q ∈ p.inner, q.infer.storedExpressions = q.storedExpressions.map Expression.infer :=
    fun q _ => q.storedExpressions_infer
  rcases p with ⟨node, span, inferred⟩ | ⟨node, span⟩ | ⟨binding, code, span⟩ |
    ⟨subject, code, span⟩
  · have hnode := node.storedExpressions_infer ih
    simp only [infer, storedExpressions, Expression.infer, Expression.storedExpressions, hnode,
      List.map_cons]
  · have hnode := node.storedExpressions_infer ih
    simp only [infer, storedExpressions, Statement.infer, Statement.storedExpressions, hnode]
  · simp_all [inner, children, infer, storedExpressions, CatchClause.infer,
      CatchClause.storedExpressions]
  · simp_all [inner, children, infer, storedExpressions, CaseClause.infer,
      CaseClause.storedExpressions]
termination_by sizeOf p
decreasing_by exact Part.sizeOf_lt_of_mem_inner ‹_›

/-- Where the rule of an expression tells a type, that type is recorded. -/
theorem Expression.inferred_infer (e : Expression) :
    e.infer.inferred = e.infer.node.typeOf.or e.inferred := by
  cases e
  rfl

/-! ### Modules -/

/-- A class without the types of the code that a pass goes into. -/
def CompiledClass.untyped (c : CompiledClass) : CompiledClass :=
  { c with
    fields := c.fields.map fun f => { f with initial := f.initial.map Expression.untyped }
    constructors := c.constructors.map fun x => { x with code := x.code.map Statement.untyped }
    methods := c.methods.map fun m => { m with code := m.code.map Statement.untyped } }

/-- A module without those types.  All else is left: names, modifiers, annotations, the default
values of parameters, whatever types they have. -/
def CompiledModule.untyped (m : CompiledModule) : CompiledModule :=
  { m with classes := m.classes.map CompiledClass.untyped }

/-- All expressions that are visited in a module, in the order of the visit. -/
def CompiledModule.visited (m : CompiledModule) : List Expression :=
  m.classes.flatMap fun c => c.code.flatMap Statement.storedExpressions

theorem Expression.infer_infer (e : Expression) : e.infer.infer = e.infer :=
  Part.expression.inj (Part.infer_infer (.expression e))

theorem Statement.infer_infer (s : Statement) : s.infer.infer = s.infer :=
  Part.statement.inj (Part.infer_infer (.statement s))

theorem Expression.untyped_infer (e : Expression) : e.infer.untyped = e.untyped :=
  Part.expression.inj (Part.untyped_infer (.expression e))

theorem Statement.untyped_infer (s : Statement) : s.infer.untyped = s.untyped :=
  Part.statement.inj (Part.untyped_infer (.statement s))

theorem CompiledClass.infer_infer (c : CompiledClass) : c.infer.infer = c.infer := by
  simp [infer, Function.comp_def, Expression.infer_infer, Statement.infer_infer]

theorem CompiledClass.untyped_infer (c : CompiledClass) : c.infer.untyped = c.untyped := by
  simp [infer, untyped, Function.comp_def, Expression.untyped_infer, Statement.untyped_infer]

theorem CompiledClass.code_infer (c : CompiledClass) :
    c.infer.code = c.code.map Statement.infer := by
  have hinitial (f : Field) : (f.initial.map Expression.infer).map Statement.ofExpression =
      (f.initial.map Statement.ofExpression).map Statement.infer := by
    cases f.initial with
    | none => rfl
    | some e => cases e; rfl
  simp only [code, infer, List.filterMap_map, List.map_append, List.map_filterMap,
    Function.comp_def, hinitial]

theorem CompiledModule.visited_infer (m : CompiledModule) :
    m.infer.visited = m.visited.map Expression.infer := by
  have hcode (s : Statement) :
      s.infer.storedExpressions = s.storedExpressions.map Expression.infer :=
    Part.storedExpressions_infer (.statement s)
  simp only [visited, infer, List.flatMap_map, List.map_flatMap, CompiledClass.code_infer, hcode]

/-- Types are told in one pass: a second one finds them as they are, and every rule agrees with
what is recorded.  The pass changes recorded types only, and takes none away. -/
theorem CompiledModule.infer_fixpoint (m : CompiledModule) :
    m.infer.infer = m.infer ∧
      (∀ e ∈ m.infer.visited, ∀ type, e.node.typeOf = some type → e.inferred = some type) ∧
      m.infer.untyped = m.untyped ∧
      List.Forall₂ (fun before after : Expression =>
        before.inferred.isSome = true → after.inferred.isSome = true)
        m.visited m.infer.visited := by
  refine ⟨?_, ?_, ?_, ?_⟩
  · simp only [infer, List.map_map, Function.comp_def, CompiledClass.infer_infer]
  · rw [visited_infer]
    refine List.forall_mem_map.mpr ?_
    intro e _ type htype
    rw [e.inferred_infer, htype, Option.some_or]
  · simp only [infer, untyped, List.map_map, Function.comp_def, CompiledClass.untyped_infer]
  · rw [visited_infer, List.forall₂_map_right_iff]
    refine List.forall₂_same.mpr fun e _ hsome => ?_
    rw [e.inferred_infer, Option.isSome_or, hsome, Bool.or_true]

/-- The sum `2 + 2 * 2` at the top level. -/
theorem CompiledModule.infer_fixpoint_sum :
    let two := Expression.unwritten (.constant (.integer 2))
    let sum := Expression.unwritten (.binary two "+" (.unwritten (.binary two "*" two)))
    let m : CompiledModule := ⟨"A", [ScriptOutline.scriptClass "A" [.ofExpression sum] []]⟩
    sum.infer ∈ m.infer.visited ∧ sum.infer.node.typeOf = some "int" ∧
      sum.infer.inferred = some "int" := by
  intro two sum m
  have hmem : sum.infer ∈ m.infer.visited := by
    rw [CompiledModule.visited_infer]
    -- the sum is the code of `run`, behind the constructors and `main`
    refine List.mem_map_of_mem (List.mem_flatMap.mpr ⟨_, .head _, List.mem_flatMap.mpr ?_⟩)
    exact ⟨.block [.ofExpression sum], .tail _ (.tail _ (.tail _ (.head _))), .head _⟩
  have htype : sum.infer.node.typeOf = some "int" := by decide
  exact ⟨hmem, htype, (infer_fixpoint m).2.1 _ hmem _ htype⟩

end ScriptOutline
