/-
ScriptOutline/Proofs/Doubled.lean

The two copies of the operand that `a ?: b` tests.  One is inside the condition and one is the
value; the first is shown, and the text of the expression is made from the second.  They are the
same operand when it is read (`Part.Regular`), and they stay the same (`Part.Doubled`), although
every phase goes into both:

* names are resolved in one copy after the other, but the first one declares nothing, so both are
  bound in the same environment (`Part.doubled_bound`);
* types depend on the operand alone (`Part.Doubled.infer`).

So the copies are equal in all code of a compilation that succeeds, whatever phase it was to reach
(`Part.persistent_doubled`, `Compilation.compile_doubled`).
-/
import ScriptOutline.Proofs.Persistent

namespace ScriptOutline

/-! ### Equal copies -/

/-- The condition of `a ?: b` is the value, as a truth value at the same span. -/
def Part.Doubled : Part → Prop
  | .expression ⟨.elvis condition value _, _, _⟩ =>
    ∃ type, condition = ⟨.wrap .boolean value, value.span, type⟩
  | _ => True

/-- The copies are equal when they are read. -/
theorem Part.Regular.doubled {p : Part} (h : p.Regular) : p.Doubled := by
  rcases p with ⟨node, span, inferred⟩ | s | c | c
  · cases node
    case elvis condition value otherwise => exact ⟨none, h.1.1⟩
    all_goals trivial
  all_goals trivial

/-! ### Names -/

/-- A condition declares what its operand declares. -/
theorem Expression.declares_asCondition (e : Expression) :
    (Part.expression e.asCondition).declares = (Part.expression e).declares := by
  rw [Part.declares_eq]
  simp [Part.hasFrame, asCondition, written, Part.analysed, ExpressionNode.analysed,
    ExpressionNode.children, Part.declared?]

/-- The copies are bound in the same environment. -/
theorem Part.doubled_bound (k : ClassContext) (inStatic : Bool) (p : Part) (env : Scope)
    (h : p.Regular) : (p.bound k inStatic env).Doubled := by
  rcases p with ⟨node, span, inferred⟩ | s | c | c
  · cases node
    case elvis condition value otherwise =>
      obtain ⟨⟨rfl, hdeclares⟩, -⟩ := h
      obtain ⟨node, span, inferred⟩ := value
      have hnone :
          (Part.expression (Expression.asCondition ⟨node, span, inferred⟩)).declares = [] :=
        (Expression.declares_asCondition _).trans hdeclares
      simp only [Part.bound, Expression.bound, ExpressionNode.bound, hnone, Scope.declareAll_nil]
      exact ⟨none, rfl⟩
    case call =>
      exact ExpressionNode.bound_call_induction
        (P := fun node => (Part.expression ⟨node, span, inferred⟩).Doubled)
        (fun _ _ _ _ _ => trivial) (fun _ _ _ => trivial) k inStatic env _ _ _ _ _
    all_goals trivial
  all_goals trivial

theorem Part.doubled_boundDeclared (k : ClassContext) (target : Expression)
    (h : target.variableName?.isSome = true) :
    (Part.expression (boundDeclared k target)).Doubled := by
  obtain ⟨name, declared, origin, span, inferred, rfl⟩ :=
    Expression.eq_variableRef_of_variableName? h
  trivial

/-! ### Types -/

theorem Part.Doubled.infer {p : Part} (h : p.Doubled) : p.infer.Doubled := by
  rcases p with ⟨node, span, inferred⟩ | s | c | c
  · cases node
    case elvis condition value otherwise =>
      obtain ⟨type, rfl⟩ := h
      obtain ⟨node, span, inferred⟩ := value
      exact ⟨_, rfl⟩
    all_goals trivial
  all_goals trivial

theorem Part.persistent_doubled : Part.Persistent Part.Doubled where
  read _ := Part.Regular.doubled
  bound := Part.doubled_bound
  declared k target _ := Part.doubled_boundDeclared k target
  infer _ := Part.Doubled.infer

/-! ### Compilations -/

namespace Compilation

variable {α : Type} {c : Compilation α} {name source : String}

/-- The pieces of the script, before it is converted, and those of the module afterwards. -/
def pieces (c : Compilation α) : List Piece :=
  c.script.toList.flatMap Script.roots ++
    c.module.toList.flatMap fun m => m.classes.flatMap CompiledClass.pieces

theorem pieces_subset_contents : c.pieces ⊆ c.contents := by
  intro p hp
  rcases List.mem_append.mp hp with hp | hp
  · exact List.mem_append_left _ hp
  · obtain ⟨m, hm, hp⟩ := List.mem_flatMap.mp hp
    obtain ⟨k, hk, hp⟩ := List.mem_flatMap.mp hp
    exact mem_contents_of_mem_pieces (Option.mem_toList.mp hm) hk hp

/-- Whatever phase a compilation has reached: in every expression `a ?: b` anywhere in its code,
the operand inside the condition is the value, and so the text of the expression is made from what
is shown. -/
theorem compile_doubled {phase : Phase} {answers : List α}
    (h : (new name source : Compilation α).compile phase = (c, .ok answers)) {p : Piece}
    (hp : p ∈ c.pieces) {condition value otherwise : Expression} {span : Span}
    {inferred : Option String}
    (hreaches : p.Reaches (.ofExpression ⟨.elvis condition value otherwise, span, inferred⟩)) :
    (∃ type, condition = ⟨.wrap .boolean value, value.span, type⟩) ∧
      (Expression.mk (.elvis condition value otherwise) span inferred).text =
        condition.text ++ " ?: " ++ otherwise.text := by
  have hdoubled : p.Everywhere Part.Doubled :=
    everywhere_contents Part.persistent_doubled h p (pieces_subset_contents hp)
  obtain ⟨type, rfl⟩ := hdoubled _ hreaches
  exact ⟨⟨type, rfl⟩, rfl⟩

/-- The first top-level statement is an expression `a ?: b`. -/
def startsWithElvis (m : CompiledModule) : Bool :=
  match m.statementBlock with
  | some ⟨.block (⟨.expression ⟨.elvis .., _, _⟩, _⟩ :: _) _, _⟩ => true
  | _ => false

/-- The top-level statements are inside a method of the module. -/
theorem reaches_statementBlock {m : CompiledModule} {s : Statement}
    (h : m.statementBlock = some s) :
    ∃ k ∈ m.classes, ∃ p ∈ k.pieces, p.Reaches (.ofStatement s) := by
  obtain ⟨k, hk, hmethods⟩ := Option.bind_eq_some_iff.mp h
  obtain ⟨run, hrun, hcode⟩ := Option.bind_eq_some_iff.mp hmethods
  have hrun : run ∈ k.methods := List.mem_of_find?_eq_some hrun
  have hmem : Piece.ofStatement s ∈ (Piece.method run).inner :=
    List.mem_append_right _ (List.mem_map_of_mem (Option.mem_toList.mpr hcode))
  exact ⟨k, List.mem_of_find?_eq_some hk, .method run,
    List.mem_append_right _ (List.mem_map_of_mem hrun), .head hmem .refl⟩

/-- The expression is inside a method of the module. -/
theorem exists_of_startsWithElvis {m : CompiledModule} (h : startsWithElvis m = true) :
    ∃ k ∈ m.classes, ∃ p ∈ k.pieces, ∃ condition value otherwise span inferred,
      p.Reaches (.ofExpression ⟨.elvis condition value otherwise, span, inferred⟩) := by
  rw [startsWithElvis] at h
  split at h
  · next condition value otherwise span inferred _ _ _ _ hblock =>
    obtain ⟨k, hk, p, hp, hreaches⟩ := reaches_statementBlock hblock
    exact ⟨k, hk, p, hp, condition, value, otherwise, span, inferred,
      hreaches.trans (.head (.head _) (.head (.head _) .refl))⟩
  · simp at h

/-- An operand with a closure in it, behind which another such expression follows. -/
def elvisCode : String := "f(\x7b it \x7d) ?: x ?: 1"

theorem compile_doubled_elvisCode :
    ∃ (c : Compilation Unit) (m : CompiledModule) (condition value : Expression),
      (new "Script1" elvisCode).compile .finalization = (c, .ok []) ∧ c.module = some m ∧
      (∃ k ∈ m.classes, ∃ p ∈ k.pieces, ∃ otherwise span inferred,
        p.Reaches (.ofExpression ⟨.elvis condition value otherwise, span, inferred⟩)) ∧
      ∃ type, condition = ⟨.wrap .boolean value, value.span, type⟩ := by
  have hok : ((new "Script1" elvisCode : Compilation Unit).compile .finalization).2 = .ok [] := by
    decide +kernel
  have hstarts : ((new "Script1" elvisCode : Compilation Unit).compile
      .finalization).1.module.any startsWithElvis = true := by decide +kernel
  obtain ⟨c, hc, hany⟩ := exists_of_answer _ (fun c => c.module.any startsWithElvis = true)
    hok hstarts
  obtain ⟨m, hm, helvis⟩ := (Option.any_eq_true _ _).mp hany
  obtain ⟨k, hk, p, hp, condition, value, otherwise, span, inferred, hreaches⟩ :=
    exists_of_startsWithElvis helvis
  have hpieces : p ∈ c.pieces := by
    rw [pieces, hm]
    exact List.mem_append_right _ (by simpa using ⟨k, hk, hp⟩)
  obtain ⟨hcondition, -⟩ := compile_doubled hc hpieces hreaches
  exact ⟨c, m, condition, value, hc, hm,
    ⟨k, hk, p, hp, otherwise, span, inferred, hreaches⟩, hcondition⟩

end Compilation

end ScriptOutline
