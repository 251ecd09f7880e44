/-
ScriptOutline/Proofs/WalkOrder.lean

Two walks over the same code.  One goes in reading order and visits what is shown
(`Statement.expressions`); the other one goes in the order in which parts are stored
(`Statement.storedExpressions`).  They differ in two kinds of expressions only: the operand that
`a ?: b` tests is stored twice, and read once; the fragments of a text are stored in front of all
its values, and read in between.

So both walks visit the same expressions but for the second copies of tested operands
(`Part.storedExpressions_perm`), in the same order if there is neither kind
(`Part.storedExpressions_eq_expressions`).  The first of this needs that no value of a text is left
over where the fragments end (`interleave_perm`).  A text has one fragment more than values
(`Part.Framed`) when it is read, and every phase keeps it so (`Part.persistent_framed`).

Main result: what the walks visit in any statement of a compilation, whatever phase it has reached
(`Compilation.compile_walks`).
-/
import Mathlib.Data.List.Perm.Basic
import ScriptOutline.Proofs.Doubled
import ScriptOutline.Proofs.Inference

namespace ScriptOutline

/-! ### Texts -/

/-- A text has one fragment more than values. -/
def Part.Framed : Part → Prop
  | .expression ⟨.interpolation fragments values, _, _⟩ => fragments.length = values.length + 1
  | _ => True

theorem Part.Regular.framed {p : Part} (h : p.Regular) : p.Framed := by
  rcases p with ⟨node, span, inferred⟩ | s | c | c
  · cases node
    case interpolation fragments values => exact h.1
    all_goals trivial
  all_goals trivial

theorem Part.framed_bound (k : ClassContext) (inStatic : Bool) (p : Part) (env : Scope)
    (h : p.Regular) : (p.bound k inStatic env).Framed := by
  rcases p with ⟨node, span, inferred⟩ | s | c | c
  · cases node
    case call =>
      exact ExpressionNode.bound_call_induction
        (P := fun node => (Part.expression ⟨node, span, inferred⟩).Framed)
        (fun _ _ _ _ _ => trivial) (fun _ _ _ => trivial) k inStatic env _ _ _ _ _
    case interpolation fragments values =>
      have hlength : fragments.length = values.length + 1 := h.1
      simpa only [Part.bound, Expression.bound, ExpressionNode.bound, Framed,
        length_boundExpressions] using hlength
    all_goals trivial
  all_goals trivial

theorem Part.Framed.infer {p : Part} (h : p.Framed) : p.infer.Framed := by
  rcases p with ⟨node, span, inferred⟩ | s | c | c
  · cases node
    case interpolation fragments values =>
      have hlength : fragments.length = values.length + 1 := h
      simpa only [Part.infer, Expression.infer, ExpressionNode.infer, Framed,
        inferExpressions_eq_map, List.length_map] using hlength
    all_goals trivial
  all_goals trivial

/-- No phase takes a fragment or a value away. -/
theorem Part.persistent_framed : Part.Persistent Part.Framed where
  read _ := Part.Regular.framed
  bound := Part.framed_bound
  declared k target _ hname := by
    obtain ⟨name, declared, origin, span, inferred, rfl⟩ :=
      Expression.eq_variableRef_of_variableName? hname
    trivial
  infer _ := Part.Framed.infer

/-- What is taken in turns from two lists is all of both, if the first one is long enough. -/
theorem interleave_perm {α : Type} {xs ys : List α} (h : ys.length ≤ xs.length) :
    (interleave xs ys).Perm (xs ++ ys) := by
  induction xs generalizing ys with
  | nil =>
    obtain rfl := List.length_eq_zero_iff.mp (Nat.le_zero.mp h)
    exact .refl _
  | cons x xs ih =>
    cases ys with
    | nil =>
      rw [interleave]
      exact (ih (Nat.zero_le _)).cons x
    | cons y ys =>
      have hrest : (interleave xs ys).Perm (xs ++ ys) := ih (Nat.le_of_succ_le_succ h)
      rw [interleave, List.cons_append]
      exact (((hrest.cons y).trans List.perm_middle.symm)).cons x

/-! ### The two orders, by direct parts -/

/-- The direct parts of an expression, in the order in which they are stored. -/
def ExpressionNode.stored : ExpressionNode → List Part
  | .elvis condition value otherwise =>
    [.expression condition, .expression value, .expression otherwise]
  | .interpolation fragments values => (fragments ++ values).map .expression
  | n => n.children

/-- The direct parts, in the order in which they are stored. -/
def Part.stored : Part → List Part
  | .expression e => e.node.stored
  | p => p.children

/-- All expressions of a part, in reading order. -/
def Part.expressions (p : Part) : List Expression := p.walk.filterMap Part.expression?

theorem Part.eq_of_mem_expression? {p : Part} {e : Expression} (h : e ∈ p.expression?) :
    p = .expression e := by
  cases p with
  | expression e' => rw [Option.some.inj h]
  | _ => cases h

theorem Part.mem_inner_of_mem_stored {p q : Part} (h : q ∈ p.stored) : q ∈ p.inner := by
  rcases p with ⟨node, span, inferred⟩ | s | c | c
  · cases node
    case closure parameters code => exact List.mem_append_right _ h
    all_goals exact h
  all_goals exact h

theorem ExpressionNode.storedExpressions_eq (n : ExpressionNode) :
    n.storedExpressions = n.stored.flatMap Part.storedExpressions := by
  cases n
  case sequence | array | interpolation =>
    simp [storedExpressions, stored, children, storedInExpressions_eq_flatMap, List.flatMap_map,
      Part.storedExpressions]
  all_goals simp [storedExpressions, stored, children, Part.storedExpressions]

theorem StatementNode.storedExpressions_eq (n : StatementNode) :
    n.storedExpressions = n.children.flatMap Part.storedExpressions := by
  cases n
  case block | tryCatch | switch =>
    simp [storedExpressions, children, storedInStatements_eq_flatMap,
      storedInCatches_eq_flatMap, storedInCases_eq_flatMap, List.flatMap_map,
      Part.storedExpressions]
  all_goals simp [storedExpressions, children, Part.storedExpressions]

theorem Part.storedExpressions_eq (p : Part) :
    p.storedExpressions = p.expression?.toList ++ p.stored.flatMap Part.storedExpressions := by
  rcases p with ⟨node, span, inferred⟩ | ⟨node, span⟩ | ⟨binding, code, span⟩ |
    ⟨subject, code, span⟩
  · exact congrArg _ node.storedExpressions_eq
  · exact node.storedExpressions_eq
  · simp [storedExpressions, CatchClause.storedExpressions, expression?, stored, children]
  · simp [storedExpressions, CaseClause.storedExpressions, expression?, stored, children]

theorem Part.expressions_eq (p : Part) :
    p.expressions = p.expression?.toList ++ p.children.flatMap Part.expressions := by
  have hchildren : (p.children.flatMap Part.walk).filterMap Part.expression? =
      p.children.flatMap Part.expressions := List.filterMap_flatMap
  rw [expressions, p.walk_eq, List.filterMap_cons, hchildren]
  cases p.expression? <;> rfl

/-! ### The same expressions -/

/-- What the walk in stored order visits once more because of an expression: the expressions of
the operand that a short conditional tests. -/
def Expression.revisited : Expression → List Expression
  | ⟨.elvis _ value _, _, _⟩ => (Part.expression value).expressions
  | _ => []

/-- The parts of one expression, in both orders. -/
theorem Part.flatMap_stored_perm {p : Part} (h : p.Framed) :
    (p.stored.flatMap Part.expressions).Perm (p.children.flatMap Part.expressions ++
      p.expression?.toList.flatMap Expression.revisited) := by
  have hsame (p : Part) (hstored : p.stored = p.children)
      (hnone : p.expression?.toList.flatMap Expression.revisited = []) :
      (p.stored.flatMap Part.expressions).Perm (p.children.flatMap Part.expressions ++
        p.expression?.toList.flatMap Expression.revisited) := by
    rw [hstored, hnone, List.append_nil]
  rcases p with ⟨node, span, inferred⟩ | s | c | c
  · cases node
    case elvis condition value otherwise =>
      simp only [stored, ExpressionNode.stored, children, ExpressionNode.children, expression?,
        Option.toList_some, List.flatMap_cons, List.flatMap_nil, List.append_nil,
        Expression.revisited, List.append_assoc]
      exact List.perm_append_comm.append_left _
    case interpolation fragments values =>
      have hlength : values.length ≤ fragments.length := by
        have hframed : fragments.length = values.length + 1 := h
        omega
      have hparts : ((fragments ++ values).map Part.expression).Perm
          ((interleave fragments values).map Part.expression) :=
        (interleave_perm hlength).symm.map _
      simpa [stored, ExpressionNode.stored, children, ExpressionNode.children, expression?,
        Expression.revisited] using hparts.flatMap_right Part.expressions
    all_goals exact hsame _ rfl rfl
  all_goals exact hsame _ rfl rfl

/-- The walk in stored order visits what the other one does, and beyond that the operand of every
short conditional that it meets. -/
theorem Part.storedExpressions_perm (p : Part) (h : (Piece.code p).Everywhere Part.Framed) :
    p.storedExpressions.Perm
      (p.expressions ++ p.storedExpressions.flatMap Expression.revisited) := by
  -- the recursion is over the stored parts: both copies of an operand are gone through
  have ih : ∀ q ∈ p.stored, q.storedExpressions.Perm
      (q.expressions ++ q.storedExpressions.flatMap Expression.revisited) :=
    fun q hq => q.storedExpressions_perm
      (h.inner (List.mem_map_of_mem (mem_inner_of_mem_stored hq)))
  have hparts : (p.stored.flatMap Part.storedExpressions).Perm
      (p.stored.flatMap Part.expressions ++
        p.stored.flatMap fun q => q.storedExpressions.flatMap Expression.revisited) :=
    (List.Perm.flatMap_left _ ih).trans (List.flatMap_append_perm _ _ _).symm
  -- now all parts are walked in reading order, and only their own order is left
  have hown := (Part.flatMap_stored_perm h.self).append_right
    (p.stored.flatMap fun q => q.storedExpressions.flatMap Expression.revisited)
  rw [p.expressions_eq, p.storedExpressions_eq, List.flatMap_append, List.flatMap_assoc,
    List.append_assoc, ← List.append_assoc (p.children.flatMap _)]
  exact (hparts.trans hown).append_left _
termination_by sizeOf p
decreasing_by exact Part.sizeOf_lt_of_mem_inner (Part.mem_inner_of_mem_stored hq)

/-! ### The same order -/

/-- The expression is neither a short conditional nor a text with values. -/
def Expression.IsPlain (e : Expression) : Prop :=
  e.kind ≠ .elvisOperatorExpression ∧ e.kind ≠ .gStringExpression

theorem Part.stored_eq_children {p : Part} (h : ∀ e ∈ p.expression?, e.IsPlain) :
    p.stored = p.children := by
  rcases p with ⟨node, span, inferred⟩ | s | c | c
  · cases node
    case elvis => exact absurd rfl (h _ rfl).1
    case interpolation => exact absurd rfl (h _ rfl).2
    all_goals rfl
  all_goals rfl

theorem Part.storedExpressions_eq_expressions (p : Part)
    (h : ∀ e ∈ p.expressions, e.IsPlain) : p.storedExpressions = p.expressions := by
  rw [p.expressions_eq, List.forall_mem_append, List.forall_mem_flatMap] at h
  obtain ⟨hown, hchildren⟩ := h
  have ih : ∀ q ∈ p.children, q.storedExpressions = q.expressions :=
    fun q hq => q.storedExpressions_eq_expressions (hchildren q hq)
  rw [p.storedExpressions_eq, p.expressions_eq,
    Part.stored_eq_children fun e he => hown e (Option.mem_toList.mpr he), List.flatMap_congr ih]
termination_by sizeOf p
decreasing_by exact Part.sizeOf_lt_of_mem_children hq

/-! ### No value is left out -/

/-- Where a text is visited in reading order, all its values are. -/
theorem Part.mem_expressions_of_interpolation (p : Part)
    (h : (Piece.code p).Everywhere Part.Framed) {fragments values : List Expression} {span : Span}
    {inferred : Option String}
    (hmem : ⟨.interpolation fragments values, span, inferred⟩ ∈ p.expressions) :
    ∀ v ∈ values, v ∈ p.expressions := by
  intro v hv
  rw [p.expressions_eq] at hmem ⊢
  -- the text is the part itself, or it is below one of its children
  rcases List.mem_append.mp hmem with hown | hbelow
  · obtain rfl := Part.eq_of_mem_expression? (Option.mem_toList.mp hown)
    have hframed : fragments.length = values.length + 1 := h.self
    have hchild : Part.expression v ∈
        (Part.expression ⟨.interpolation fragments values, span, inferred⟩).children := by
      refine List.mem_map_of_mem ((interleave_perm (by omega)).mem_iff.mpr ?_)
      exact List.mem_append_right _ hv
    refine List.mem_append_right _ (List.mem_flatMap.mpr ⟨_, hchild, ?_⟩)
    rw [Part.expressions_eq]
    exact .head _
  · obtain ⟨q, hq, hmem⟩ := List.mem_flatMap.mp hbelow
    have hinner := h.inner (List.mem_map_of_mem (mem_inner_of_mem_children hq))
    exact List.mem_append_right _ (List.mem_flatMap.mpr
      ⟨q, hq, q.mem_expressions_of_interpolation hinner hmem v hv⟩)
termination_by sizeOf p
decreasing_by exact Part.sizeOf_lt_of_mem_children hq

/-! ### Compilations -/

/-- What two walks visit in a statement anywhere in a compilation, whatever phase it has reached.
The walk in stored order visits the expressions that the walk in reading order visits, and for each
short conditional that it meets those of the tested operand once more.  Both visit the same in the
same order if there is neither a short conditional nor a text with values.  The walk in reading
order visits all values of each text. -/
theorem Compilation.compile_walks {α : Type} {c : Compilation α} {name source : String}
    {phase : Phase} {answers : List α}
    (h : (new name source : Compilation α).compile phase = (c, .ok answers)) {p : Piece}
    (hp : p ∈ c.contents) {s : Statement} (hs : p.Reaches (.ofStatement s)) :
    s.storedExpressions.Perm
        (s.expressions ++ s.storedExpressions.flatMap Expression.revisited) ∧
      ((∀ e ∈ s.expressions, e.IsPlain) → s.storedExpressions = s.expressions) ∧
      ∀ fragments values span inferred,
        ⟨.interpolation fragments values, span, inferred⟩ ∈ s.expressions →
          ∀ v ∈ values, v ∈ s.expressions := by
  have hframed : (Piece.ofStatement s).Everywhere Part.Framed :=
    fun q hq => everywhere_contents Part.persistent_framed h p hp q (hs.trans hq)
  exact ⟨(Part.statement s).storedExpressions_perm hframed,
    (Part.statement s).storedExpressions_eq_expressions,
    fun _ _ _ _ => (Part.statement s).mem_expressions_of_interpolation hframed⟩

/-- A text with two values in a short conditional. -/
def walkCode : String := "\"$a, $b\" ?: c"

theorem Compilation.compile_walks_walkCode :
    ∃ (c : Compilation Unit) (m : CompiledModule) (s : Statement),
      (new "Script1" walkCode).compile .finalization = (c, .ok []) ∧ c.module = some m ∧
      startsWithElvis m = true ∧ m.statementBlock = some s ∧
      s.storedExpressions.Perm
        (s.expressions ++ s.storedExpressions.flatMap Expression.revisited) := by
  have hok : ((new "Script1" walkCode : Compilation Unit).compile .finalization).2 = .ok [] := by
    decide +kernel
  have hstarts : ((new "Script1" walkCode : Compilation Unit).compile
      .finalization).1.module.any startsWithElvis = true := by decide +kernel
  obtain ⟨c, hc, hany⟩ := exists_of_answer _ (fun c => c.module.any startsWithElvis = true)
    hok hstarts
  obtain ⟨m, hm, hstarts⟩ := (Option.any_eq_true _ _).mp hany
  obtain ⟨s, hs⟩ : ∃ s, m.statementBlock = some s := by
    cases hblock : m.statementBlock with
    | none => simp [startsWithElvis, hblock] at hstarts
    | some s => exact ⟨s, rfl⟩
  obtain ⟨k, hk, p, hp, hreaches⟩ := reaches_statementBlock hs
  exact ⟨c, m, s, hc, hm, hstarts, hs,
    (compile_walks hc (mem_contents_of_mem_pieces hm hk hp) hreaches).1⟩

end ScriptOutline
