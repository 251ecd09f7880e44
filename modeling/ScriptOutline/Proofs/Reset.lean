/-
ScriptOutline/Proofs/Reset.lean

What the types of expressions change in an outline: the rows that show them, and nothing else.
The text of code does not depend on types (`Expression.text_infer`), and neither do the other rows
(`Part.rows_infer`), the kinds and the placeholders.  So the forest of code with types, its type
rows reset, is the forest of the code as it was, if no types were told there before
(`Part.forest_infer`).  Before types are told that is so: binding tells none
(`CompiledClass.uninferred_bound`).
-/
import ScriptOutline.Proofs.Everywhere

namespace ScriptOutline

/-! ### Resetting rows -/

/-- The row as it is before the last phases: no type, no accessor, and not generated. -/
def Row.reset (r : Row) : Row :=
  if r.name ∈ ["inferred_type", "getter_name", "setter_name"] then { r with value := none }
  else if r.name = "generated" then { r with value := some "false" }
  else r

theorem Row.name_reset (r : Row) : r.reset.name = r.name := by
  rw [reset]
  split
  · rfl
  · split <;> rfl

/-- Rows are sorted by their names only. -/
theorem sortRows_map_reset (rows : List Row) :
    sortRows (rows.map Row.reset) = (sortRows rows).map Row.reset := by
  rw [sortRows, sortRows, List.map_mergeSort]
  intro a _ b _
  rw [Row.name_reset, Row.name_reset]

namespace Outline

mutual

/-- The outline with all rows reset. -/
def reset : Outline → Outline
  | ⟨label, rows, children⟩ => ⟨label, rows.map Row.reset, resetAll children⟩

def resetAll : List Outline → List Outline
  | [] => []
  | t :: rest => t.reset :: resetAll rest

end

theorem resetAll_eq_map (ts : List Outline) : resetAll ts = ts.map reset := by
  induction ts with
  | nil => rfl
  | cons t ts ih => rw [resetAll, List.map_cons, ih]

theorem reset_ofLabel (label : String) (children : List Outline) :
    (ofLabel label children).reset = ofLabel label (children.map reset) := by
  rw [ofLabel, reset, resetAll_eq_map]
  rfl

/-- Without templates the label does not depend on rows. -/
theorem reset_ofNode (kind : Kind) (rows : List Row) (children : List Outline) :
    (ofNode .empty kind rows children).reset =
      ofNode .empty kind (rows.map Row.reset) (children.map reset) := by
  rw [ofNode, reset, resetAll_eq_map, ← sortRows_map_reset]
  rfl

end Outline

/-! ### Texts -/

theorem Statement.isEmpty_infer (s : Statement) : s.infer.isEmpty = s.isEmpty := by
  obtain ⟨node, span⟩ := s
  cases node <;> rfl

theorem Statement.after_infer (s : Statement) (word text : String) :
    after word s.infer text = after word s text := by
  rw [after, after, s.isEmpty_infer]

mutual

theorem Expression.text_infer : ∀ e : Expression, e.infer.text = e.text
  | ⟨node, _, _⟩ => by rw [Expression.infer, Expression.text, Expression.text, node.text_infer]

theorem ExpressionNode.text_infer : ∀ n : ExpressionNode, n.infer.text = n.text
  | .call object _ arguments _ _ =>
    congrArg₂ (· ++ _ ++ _ ++ ·) object.text_infer arguments.text_infer
  | .staticCall _ _ arguments => congrArg (_ ++ ·) arguments.text_infer
  | .construct _ arguments none => congrArg (_ ++ ·) arguments.text_infer
  | .construct _ arguments (some _) => congrArg (_ ++ ·) arguments.text_infer
  | .binary left operation right =>
    congrArg₂ (fun left right => if operation = "[" then left ++ listed right
      else bracketed (left ++ " " ++ operation ++ " " ++ right)) left.text_infer right.text_infer
  | .declaration ⟨target, _, _⟩ ⟨value, _, _⟩ => by
    have htarget := target.text_infer
    have hvalue := value.text_infer
    -- only the form of the target and of the value is looked at, beside their texts
    refine congrArg₂ (· ++ ·) (congrArg₂ (· ++ " " ++ ·) ?_ htarget) ?_
    · cases target <;> rfl
    · cases value
      case empty => rfl
      all_goals exact congrArg (" = " ++ ·) hvalue
  | .ternary condition whenTrue whenFalse => by
    show bracketed condition.infer.text ++ " ? " ++ whenTrue.infer.text ++ " : " ++
      whenFalse.infer.text = _
    rw [condition.text_infer, whenTrue.text_infer, whenFalse.text_infer]
    rfl
  | .elvis _ value otherwise => congrArg₂ (· ++ " ?: " ++ ·) value.text_infer otherwise.text_infer
  | .step .before _ operand => congrArg (fun text => bracketed (_ ++ text)) operand.text_infer
  | .step .after _ operand => congrArg (fun text => bracketed (text ++ _)) operand.text_infer
  | .wrap wrapper operand => congrArg wrapper.enclose operand.text_infer
  | .closure parameters ⟨node, _⟩ => by
    have hnode := node.text_infer
    cases node
    -- a block has no braces of its own inside those of the closure
    case block statements declared =>
      exact congrArg (fun texts => braced (closureHead parameters ++ joinWith "; " texts))
        (statementTexts_infer statements)
    all_goals exact congrArg (fun text => braced (closureHead parameters ++ text)) hnode
  | .sequence form items => congrArg form.enclose (expressionTexts_infer items)
  | .array elementType elements [] =>
    congrArg (fun texts => listed (joinWith ", " texts) ++ " as " ++ elementType.text ++ "[]")
      (expressionTexts_infer elements)
  | .array elementType _ (size :: sizes) =>
    congrArg (fun texts : List String =>
        "new " ++ elementType.text ++ joinWith "" (texts.map listed))
      (expressionTexts_infer (size :: sizes))
  | .mapEntry key value => congrArg₂ (· ++ ":" ++ ·) key.text_infer value.text_infer
  | .range first last _ =>
    congrArg₂ (fun first last => bracketed (first ++ _ ++ last)) first.text_infer last.text_infer
  | .methodPointer object _ => congrArg (· ++ ".&" ++ _) object.text_infer
  | .cast target operand coerce =>
    congrArg (fun operand => if coerce then operand ++ " as " ++ target.text
      else bracketed target.text ++ " " ++ operand) operand.text_infer
  | .access object _ _ => congrArg (· ++ _ ++ _) object.text_infer
  | .interpolation fragments values =>
    congrArg₂ (fun fragments values => "\"" ++ interpolate fragments values ++ "\"")
      (expressionTexts_infer fragments) (expressionTexts_infer values)
  | .constant _ | .classRef _ | .variableRef .. | .field .. | .bytecode _ | .empty => rfl

theorem expressionTexts_infer : ∀ es : List Expression,
    expressionTexts (inferExpressions es) = expressionTexts es
  | [] => rfl
  | e :: rest => congrArg₂ List.cons e.text_infer (expressionTexts_infer rest)

theorem Statement.text_infer : ∀ s : Statement, s.infer.text = s.text
  | ⟨node, _⟩ => by rw [Statement.infer, Statement.text, Statement.text, node.text_infer]

theorem StatementNode.text_infer : ∀ n : StatementNode, n.infer.text = n.text
  | .block [] _ => rfl
  | .block (s :: rest) _ =>
    congrArg (fun texts => braced (joinWith "; " texts)) (statementTexts_infer (s :: rest))
  | .expression value => value.text_infer
  | .ret value => congrArg ("return " ++ ·) value.text_infer
  | .assertion condition message =>
    congrArg₂ ("assert " ++ · ++ " : " ++ ·) condition.text_infer message.text_infer
  | .loop (some _) collection body =>
    congrArg₂ ("for (" ++ _ ++ " in " ++ · ++ ") " ++ ·) collection.text_infer body.text_infer
  | .loop none collection body =>
    congrArg₂ ("for " ++ · ++ " " ++ ·) collection.text_infer body.text_infer
  | .whileLoop condition body =>
    congrArg₂ ("while (" ++ · ++ ") " ++ ·) condition.text_infer body.text_infer
  | .doWhile body condition =>
    congrArg₂ ("do " ++ · ++ " while (" ++ · ++ ")") body.text_infer condition.text_infer
  | .branch condition whenTrue whenFalse => by
    show "if (" ++ condition.infer.text ++ ") " ++ whenTrue.infer.text ++
      after " else " whenFalse.infer whenFalse.infer.text = _
    rw [condition.text_infer, whenTrue.text_infer, whenFalse.text_infer, whenFalse.after_infer]
    rfl
  | .tryCatch body catches finallyBlock => by
    show "try " ++ body.infer.text ++
      joinWith "" ((catchTexts (inferCatches catches)).map (" " ++ ·)) ++
      after " finally " finallyBlock.infer finallyBlock.infer.text = _
    rw [body.text_infer, catchTexts_infer catches, finallyBlock.text_infer,
      finallyBlock.after_infer]
    rfl
  | .switch subject cases defaultBlock => by
    show "switch (" ++ subject.infer.text ++ ") \x7b " ++
      joinWith "" ((caseTexts (inferCases cases)).map (· ++ " ")) ++
      after "default: " defaultBlock.infer (defaultBlock.infer.text ++ " ") ++ "\x7d" = _
    rw [subject.text_infer, caseTexts_infer cases, defaultBlock.text_infer,
      defaultBlock.after_infer]
    rfl
  | .synchronized lock code =>
    congrArg₂ ("synchronized (" ++ · ++ ") " ++ ·) lock.text_infer code.text_infer
  | .throw value => congrArg ("throw " ++ ·) value.text_infer
  | .breakLoop | .continueLoop | .empty => rfl

theorem statementTexts_infer : ∀ ss : List Statement,
    statementTexts (inferStatements ss) = statementTexts ss
  | [] => rfl
  | s :: rest => congrArg₂ List.cons s.text_infer (statementTexts_infer rest)

theorem CatchClause.text_infer : ∀ c : CatchClause, c.infer.text = c.text
  | ⟨_, code, _⟩ => congrArg (_ ++ ·) code.text_infer

theorem catchTexts_infer : ∀ cs : List CatchClause, catchTexts (inferCatches cs) = catchTexts cs
  | [] => rfl
  | c :: rest => congrArg₂ List.cons c.text_infer (catchTexts_infer rest)

theorem CaseClause.text_infer : ∀ c : CaseClause, c.infer.text = c.text
  | ⟨subject, code, _⟩ =>
    congrArg₂ ("case " ++ · ++ ": " ++ ·) subject.text_infer code.text_infer

theorem caseTexts_infer : ∀ cs : List CaseClause, caseTexts (inferCases cs) = caseTexts cs
  | [] => rfl
  | c :: rest => congrArg₂ List.cons c.text_infer (caseTexts_infer rest)

end

/-! ### Rows -/

theorem ExpressionNode.rows_infer (n : ExpressionNode) : n.infer.rows = n.rows := by
  cases n
  case sequence | array | interpolation =>
    simp [infer, rows, interpolationText, inferExpressions_eq_map, Expression.text_infer,
      Function.comp_def]
  all_goals rfl

theorem ExpressionNode.map_reset_rows (n : ExpressionNode) : n.rows.map Row.reset = n.rows := by
  cases n <;> simp [rows, Row.reset, Row.ofString, Row.ofBool, Row.ofNat, Row.ofType]

theorem ExpressionNode.kind_infer (n : ExpressionNode) : n.infer.kind = n.kind := by
  cases n
  case step side operation operand => cases side <;> rfl
  case access object name accessor => cases accessor <;> rfl
  all_goals rfl

theorem Expression.kind_infer (e : Expression) : e.infer.kind = e.kind := by
  obtain ⟨node, span, inferred⟩ := e
  exact node.kind_infer

theorem Expression.isNull_infer (e : Expression) : e.infer.isNull = e.isNull := by
  obtain ⟨node, span, inferred⟩ := e
  cases node <;> rfl

theorem StatementNode.rows_infer (n : StatementNode) : n.infer.rows = n.rows := by
  cases n <;>
    simp [infer, rows, inferStatements_eq_map, inferCatches_eq_map, inferCases_eq_map,
      Expression.kind_infer, Expression.isNull_infer, Statement.isEmpty_infer]

theorem StatementNode.map_reset_rows (n : StatementNode) : n.rows.map Row.reset = n.rows := by
  cases n <;> simp [rows, Row.reset, Row.ofString, Row.ofBool, Row.ofNat]

/-! ### Code without types -/

/-- No type has been told of the expression. -/
def Part.Uninferred : Part → Prop
  | .expression e => e.inferred = none
  | _ => True

namespace Part

theorem Regular.uninferred {p : Part} (h : p.Regular) : p.Uninferred := by
  cases p
  case expression e => exact h.2
  all_goals trivial

/-- Binding tells no types. -/
theorem uninferred_bound (k : ClassContext) (inStatic : Bool) (p : Part) (env : Scope)
    (h : p.Regular) : (p.bound k inStatic env).Uninferred := by
  rcases p with ⟨node, span, inferred⟩ | s | c | c
  · exact h.2
  all_goals trivial

theorem uninferred_boundDeclared (k : ClassContext) (target : Expression)
    (h : (Part.expression target).Regular) :
    (Part.expression (boundDeclared k target)).Uninferred := by
  show (boundDeclared k target).inferred = none
  rw [boundDeclared]
  split <;> exact h.2

/-- Types show in their own rows. -/
theorem rows_infer {p : Part} (h : p.Uninferred) : p.infer.rows.map Row.reset = p.rows := by
  rcases p with ⟨node, span, inferred⟩ | ⟨node, span⟩ | ⟨binding, code, span⟩ |
    ⟨subject, code, span⟩
  · obtain rfl : inferred = none := h
    have hnode : node.infer.rows.map Row.reset = node.rows := by
      rw [node.rows_infer, node.map_reset_rows]
    simp only [infer, rows, Expression.rows, Expression.text_infer, List.map_cons]
    simp only [Expression.infer, hnode]
    rfl
  · have hnode : node.infer.rows.map Row.reset = node.rows := by
      rw [node.rows_infer, node.map_reset_rows]
    simp only [infer, rows, Statement.rows, Statement.text_infer, List.map_cons]
    simp only [Statement.infer, hnode]
    rfl
  · simp only [infer, rows, CatchClause.rows, CatchClause.text_infer]
    rfl
  · simp only [infer, rows, CaseClause.rows, CaseClause.text_infer]
    simp only [CaseClause.infer, subject.text_infer]
    rfl

theorem kind_infer (p : Part) : p.infer.kind = p.kind := by
  rcases p with e | ⟨node, span⟩ | c | c
  · exact e.kind_infer
  · cases node <;> rfl
  · rfl
  · rfl

theorem isPlaceholder_infer (p : Part) : p.infer.isPlaceholder = p.isPlaceholder := by
  rcases p with ⟨node, span, inferred⟩ | ⟨node, span⟩ | c | c
  · cases node <;> rfl
  · cases node <;> rfl
  · rfl
  · rfl

/-- In an outline, types can be taken back. -/
theorem forest_infer (p : Part) (h : (Piece.code p).Everywhere Uninferred) :
    (p.infer.forest .empty).map Outline.reset = p.forest .empty := by
  have hchildren : (p.infer.children.flatMap (·.forest .empty)).map Outline.reset =
      p.children.flatMap (·.forest .empty) := by
    rw [p.children_infer, List.flatMap_map, List.map_flatMap]
    refine List.flatMap_congr fun q hq => ?_
    exact q.forest_infer (h.inner (List.mem_map_of_mem (mem_inner_of_mem_children hq)))
  rw [p.infer.forest_eq, p.forest_eq, p.isPlaceholder_infer]
  split
  · rfl
  · rw [List.map_singleton, Outline.reset_ofNode, hchildren, rows_infer h.self, p.kind_infer]
termination_by sizeOf p
decreasing_by exact Part.sizeOf_lt_of_mem_children hq

end Part

theorem Expression.outline_infer {e : Expression}
    (h : (Piece.ofExpression e).Everywhere Part.Uninferred) :
    (e.infer.outline .empty).map Outline.reset = e.outline .empty := by
  rw [Expression.outline_eq, Expression.outline_eq]
  exact (Part.expression e).forest_infer h

theorem Statement.outline_infer {s : Statement}
    (h : (Piece.ofStatement s).Everywhere Part.Uninferred) :
    (s.infer.outline .empty).map Outline.reset = s.outline .empty := by
  rw [Statement.outline_eq, Statement.outline_eq]
  exact (Part.statement s).forest_infer h

end ScriptOutline
