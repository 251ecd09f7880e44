/-
ScriptOutline/Proofs/Agreement.lean

What binding looks at in an environment: the origins of names, and whether a name can be declared.
Environments that agree on these (`Scope.Agrees`) bind all code alike, however the names are
distributed over frames (`Expression.bound_congr`, `Statement.bound_congr`).  In particular, an
empty frame more or less makes no difference inside of another frame (`Scope.Agrees.enter`).

To agree is kept by every step from the environment of a piece of code to that of its parts, and
so the proof goes along with the definition of binding, constructor by constructor.
-/
import ScriptOutline.Proofs.Resolution

namespace ScriptOutline

/-! ### Environments that agree -/

namespace Scope

/-- Every name has the same origin in both environments, and if names can be declared in one of
them, they can be in the other. -/
structure Agrees (env env' : Scope) : Prop where
  nil_iff : env = [] ↔ env' = []
  nearest : ∀ name, env.nearest? name = env'.nearest? name

theorem nearest?_declare {env : Scope} (h : env ≠ []) (declared name : String) (origin : Origin) :
    (env.declare declared origin).nearest? name =
      if declared = name then some origin else env.nearest? name := by
  cases env with
  | nil => exact absurd rfl h
  | cons frame outer =>
    rw [declare, nearest?_cons, nearest?_cons, List.find?_cons]
    by_cases hname : declared = name
    · simp [hname]
    · simp [hname, beq_false_of_ne hname]

theorem declare_eq_nil_iff {env : Scope} {name : String} {origin : Origin} :
    env.declare name origin = [] ↔ env = [] := by
  cases env <;> simp [declare]

theorem declareAll_eq_nil_iff {names : List String} {env : Scope} :
    env.declareAll names = [] ↔ env = [] := by
  induction names generalizing env with
  | nil => rfl
  | cons name names ih => exact ih.trans declare_eq_nil_iff

theorem declareAll_ne_nil {env : Scope} (h : env ≠ []) (names : List String) :
    env.declareAll names ≠ [] := mt declareAll_eq_nil_iff.mp h

namespace Agrees

variable {env env' : Scope}

/-- A frame without names changes no origin. -/
theorem enter (h : env ≠ []) : Agrees env.enter env where
  nil_iff := by simp [Scope.enter, h]
  nearest name := by simp [Scope.enter, nearest?_cons]

theorem cons (h : Agrees env env') (frame : Frame) : Agrees (frame :: env) (frame :: env') where
  nil_iff := by simp
  nearest name := by rw [nearest?_cons, nearest?_cons, h.nearest]

theorem declare (h : Agrees env env') (name : String) (origin : Origin) :
    Agrees (env.declare name origin) (env'.declare name origin) where
  nil_iff := by rw [declare_eq_nil_iff, declare_eq_nil_iff, h.nil_iff]
  nearest other := by
    by_cases hnil : env = []
    · rw [hnil, h.nil_iff.mp hnil]
    · rw [nearest?_declare hnil, nearest?_declare (mt h.nil_iff.mpr hnil), h.nearest]

theorem declareAll (h : Agrees env env') (names : List String) :
    Agrees (env.declareAll names) (env'.declareAll names) := by
  induction names generalizing env env' with
  | nil => exact h
  | cons name names ih => exact ih (h.declare name _)

theorem loopEnvironment (h : Agrees env env') (binding : Option Binding)
    (collection : Expression) : Agrees (loopEnvironment binding collection env)
      (loopEnvironment binding collection env') :=
  ((h.cons []).declareAll _).declareAll _

end Agrees

end Scope

section

variable {k : ClassContext} {inStatic : Bool}

theorem Scope.Agrees.originIn {env env' : Scope} (h : env.Agrees env') (name : String) :
    k.originIn env name = k.originIn env' name := by
  rw [ClassContext.originIn, ClassContext.originIn, h.nearest]

mutual

/-- Only the origins of names matter in an environment. -/
theorem Expression.bound_congr : ∀ (e : Expression) {env env' : Scope}, env.Agrees env' →
    e.bound k inStatic env = e.bound k inStatic env'
  | ⟨node, span, inferred⟩, _, _, h => by
    simp only [Expression.bound, node.bound_congr h]

theorem ExpressionNode.bound_congr : ∀ (node : ExpressionNode) {env env' : Scope},
    env.Agrees env' → node.bound k inStatic env = node.bound k inStatic env'
  | .call object method arguments safe implicitReceiver, _, _, h => by
    simp only [ExpressionNode.bound, object.bound_congr h, arguments.bound_congr (h.declareAll _)]
  | .staticCall owner method arguments, _, _, h => by
    simp only [ExpressionNode.bound, arguments.bound_congr h]
  | .construct target arguments special, _, _, h => by
    simp only [ExpressionNode.bound, arguments.bound_congr h]
  | .binary left operation right, _, _, h => by
    simp only [ExpressionNode.bound, left.bound_congr h, right.bound_congr (h.declareAll _)]
  | .declaration target value, _, _, h => by
    simp only [ExpressionNode.bound, value.bound_congr h]
  | .ternary condition whenTrue whenFalse, _, _, h => by
    simp only [ExpressionNode.bound, condition.bound_congr h,
      whenTrue.bound_congr (h.declareAll _), whenFalse.bound_congr ((h.declareAll _).declareAll _)]
  | .elvis condition value otherwise, _, _, h => by
    simp only [ExpressionNode.bound, condition.bound_congr h, value.bound_congr (h.declareAll _),
      otherwise.bound_congr ((h.declareAll _).declareAll _)]
  | .step side operation operand, _, _, h => by
    simp only [ExpressionNode.bound, operand.bound_congr h]
  | .wrap wrapper operand, _, _, h => by
    simp only [ExpressionNode.bound, operand.bound_congr h]
  | .closure parameters code, _, _, h => by
    simp only [ExpressionNode.bound, code.bound_congr (h.cons _)]
  | .sequence form items, _, _, h => by
    simp only [ExpressionNode.bound, boundExpressions_congr items h]
  | .array elementType elements sizes, _, _, h => by
    simp only [ExpressionNode.bound, boundExpressions_congr elements h,
      boundExpressions_congr sizes (h.declareAll _)]
  | .mapEntry key value, _, _, h => by
    simp only [ExpressionNode.bound, key.bound_congr h, value.bound_congr (h.declareAll _)]
  | .range first last inclusive, _, _, h => by
    simp only [ExpressionNode.bound, first.bound_congr h, last.bound_congr (h.declareAll _)]
  | .methodPointer object method, _, _, h => by
    simp only [ExpressionNode.bound, object.bound_congr h]
  | .cast target operand coerce, _, _, h => by
    simp only [ExpressionNode.bound, operand.bound_congr h]
  | .constant _, _, _, _ => rfl
  | .classRef _, _, _, _ => rfl
  | .variableRef name declared origin, _, _, h => by
    simp only [ExpressionNode.bound, h.originIn]
  | .access object name accessor, _, _, h => by
    simp only [ExpressionNode.bound, object.bound_congr h]
  | .field _ _, _, _, _ => rfl
  | .interpolation fragments values, _, _, h => by
    simp only [ExpressionNode.bound, boundExpressions_congr fragments h,
      boundExpressions_congr values (h.declareAll _)]
  | .bytecode _, _, _, _ => rfl
  | .empty, _, _, _ => rfl

theorem boundExpressions_congr : ∀ (es : List Expression) {env env' : Scope}, env.Agrees env' →
    boundExpressions k inStatic env es = boundExpressions k inStatic env' es
  | [], _, _, _ => rfl
  | e :: rest, _, _, h => by
    simp only [boundExpressions, e.bound_congr h, boundExpressions_congr rest (h.declareAll _)]

theorem Statement.bound_congr : ∀ (s : Statement) {env env' : Scope}, env.Agrees env' →
    s.bound k inStatic env = s.bound k inStatic env'
  | ⟨node, span⟩, _, _, h => by
    simp only [Statement.bound, node.bound_congr h]

theorem StatementNode.bound_congr : ∀ (node : StatementNode) {env env' : Scope},
    env.Agrees env' → node.bound k inStatic env = node.bound k inStatic env'
  | .block statements declared, _, _, h => by
    simp only [StatementNode.bound, Scope.enter, boundStatements_congr statements (h.cons [])]
  | .expression value, _, _, h => by
    simp only [StatementNode.bound, value.bound_congr h]
  | .ret value, _, _, h => by
    simp only [StatementNode.bound, value.bound_congr h]
  | .assertion condition message, _, _, h => by
    simp only [StatementNode.bound, condition.bound_congr h, message.bound_congr (h.declareAll _)]
  | .loop binding collection body, _, _, h => by
    simp only [StatementNode.bound, Scope.enter, collection.bound_congr (h.cons []),
      body.bound_congr (h.loopEnvironment binding collection)]
  | .whileLoop condition body, _, _, h => by
    simp only [StatementNode.bound, condition.bound_congr h, body.bound_congr (h.declareAll _)]
  | .doWhile body condition, _, _, h => by
    simp only [StatementNode.bound, body.bound_congr h, condition.bound_congr (h.declareAll _)]
  | .branch condition whenTrue whenFalse, _, _, h => by
    simp only [StatementNode.bound, condition.bound_congr h,
      whenTrue.bound_congr (h.declareAll _), whenFalse.bound_congr ((h.declareAll _).declareAll _)]
  | .tryCatch body catches finallyBlock, _, _, h => by
    simp only [StatementNode.bound, body.bound_congr h,
      boundCatches_congr catches (h.declareAll _), finallyBlock.bound_congr (h.declareAll _)]
  | .switch subject cases defaultBlock, _, _, h => by
    simp only [StatementNode.bound, subject.bound_congr h, boundCases_congr cases (h.declareAll _),
      defaultBlock.bound_congr ((h.declareAll _).declareAll _)]
  | .breakLoop, _, _, _ => rfl
  | .continueLoop, _, _, _ => rfl
  | .synchronized lock code, _, _, h => by
    simp only [StatementNode.bound, lock.bound_congr h, code.bound_congr (h.declareAll _)]
  | .throw value, _, _, h => by
    simp only [StatementNode.bound, value.bound_congr h]
  | .empty, _, _, _ => rfl

theorem boundStatements_congr : ∀ (ss : List Statement) {env env' : Scope}, env.Agrees env' →
    boundStatements k inStatic env ss = boundStatements k inStatic env' ss
  | [], _, _, _ => rfl
  | s :: rest, _, _, h => by
    simp only [boundStatements, s.bound_congr h, boundStatements_congr rest (h.declareAll _)]

theorem CatchClause.bound_congr : ∀ (c : CatchClause) {env env' : Scope}, env.Agrees env' →
    c.bound k inStatic env = c.bound k inStatic env'
  | ⟨binding, code, span⟩, _, _, h => by
    simp only [CatchClause.bound, code.bound_congr (h.cons _)]

theorem boundCatches_congr : ∀ (cs : List CatchClause) {env env' : Scope}, env.Agrees env' →
    boundCatches k inStatic env cs = boundCatches k inStatic env' cs
  | [], _, _, _ => rfl
  | c :: rest, _, _, h => by
    simp only [boundCatches, c.bound_congr h, boundCatches_congr rest h]

theorem CaseClause.bound_congr : ∀ (c : CaseClause) {env env' : Scope}, env.Agrees env' →
    c.bound k inStatic env = c.bound k inStatic env'
  | ⟨subject, code, span⟩, _, _, h => by
    simp only [CaseClause.bound, subject.bound_congr h, code.bound_congr (h.declareAll _)]

theorem boundCases_congr : ∀ (cs : List CaseClause) {env env' : Scope}, env.Agrees env' →
    boundCases k inStatic env cs = boundCases k inStatic env' cs
  | [], _, _, _ => rfl
  | c :: rest, _, _, h => by
    simp only [boundCases, c.bound_congr h, boundCases_congr rest (h.declareAll _)]

end

end

end ScriptOutline
