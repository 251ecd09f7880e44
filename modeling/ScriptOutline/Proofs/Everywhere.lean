/-
ScriptOutline/Proofs/Everywhere.lean

What holds everywhere in code, after the resolution of names.  Binding goes into the parts that
are analysed, and leaves the default values of the parameters of closures as they were read; what
a declaration declares becomes the variable that it is.  So a property of single parts holds
everywhere in bound code if it holds of what is read, of that with its parts bound, and of such a
variable (`Part.everywhere_bound`).  The same goes for the members of a class, of which the
annotations are not touched (`CompiledClass.everywhere_bound`).
-/
import ScriptOutline.Proofs.Settled

namespace ScriptOutline

/-! ### Smaller parts -/

theorem ExpressionNode.sizeOf_lt_of_mem_inner (n : ExpressionNode) :
    ∀ q ∈ n.inner, sizeOf q < sizeOf n + 1 := by
  have hchildren := n.sizeOf_lt_of_mem_children
  cases n
  case elvis =>
    simp [inner]
    omega
  case closure parameters code =>
    simp only [inner, List.forall_mem_append, List.forall_mem_map, List.forall_mem_singleton]
    refine ⟨fun e he => ?_, ?_⟩
    · obtain ⟨p, hp, hvalue⟩ := List.mem_filterMap.mp he
      obtain ⟨name, type, value⟩ := p
      obtain rfl : value = some e := hvalue
      cases parameters with
      | none => exact absurd hp List.not_mem_nil
      | some ps =>
        have := List.sizeOf_lt_of_mem (show _ ∈ ps from hp)
        simp only [Parameter.mk.sizeOf_spec, Option.some.sizeOf_spec] at this
        simp only [Part.expression.sizeOf_spec, ExpressionNode.closure.sizeOf_spec,
          Option.some.sizeOf_spec]
        omega
    · simp only [Part.statement.sizeOf_spec, ExpressionNode.closure.sizeOf_spec]
      omega
  case interpolation fragments values =>
    simp only [inner, List.forall_mem_map, List.forall_mem_append]
    constructor <;> intro e he <;> have := List.sizeOf_lt_of_mem he <;>
      simp only [Part.expression.sizeOf_spec, ExpressionNode.interpolation.sizeOf_spec] <;> omega
  all_goals exact hchildren

/-- What is directly inside a part is smaller, whether or not a walk goes there. -/
theorem Part.sizeOf_lt_of_mem_inner {p q : Part} (h : q ∈ p.inner) : sizeOf q < sizeOf p := by
  rcases p with ⟨node, span, inferred⟩ | s | c | c
  · have := node.sizeOf_lt_of_mem_inner q h
    simp only [Part.expression.sizeOf_spec, Expression.mk.sizeOf_spec]
    omega
  all_goals exact Part.sizeOf_lt_of_mem_children h

/-- What is shown below a part is directly inside it. -/
theorem Part.mem_inner_of_mem_children {p q : Part} (h : q ∈ p.children) : q ∈ p.inner := by
  rcases p with ⟨node, span, inferred⟩ | s | c | c
  · cases node
    case elvis condition value otherwise =>
      obtain rfl | rfl := List.mem_pair.mp h
      · exact .head _
      · exact .tail _ (.tail _ (.head _))
    case closure parameters code => exact List.mem_append_right _ h
    case interpolation fragments values =>
      obtain ⟨e, he, rfl⟩ := List.mem_map.mp h
      exact List.mem_map_of_mem (List.mem_append.mpr (mem_interleave he))
    all_goals exact h
  all_goals exact h

/-! ### Binding -/

variable {k : ClassContext} {inStatic : Bool} {P : Part → Prop}

theorem defaultValues_boundClosureParameters (ps : Option (List Parameter)) :
    defaultValues ((ps.map (boundClosureParameters k)).getD []) = defaultValues (ps.getD []) := by
  cases ps with
  | none => rfl
  | some ps => simp [boundClosureParameters, defaultValues, List.filterMap_map]

/-- What is directly inside a bound expression is what was analysed, bound, or what is declared,
or it is the default value of a parameter of a closure, which is not bound. -/
theorem ExpressionNode.forall_inner_bound {node : ExpressionNode} (env : Scope)
    (hsame : ∀ q ∈ node.inner, P q)
    (hdeclared : ∀ target value, node = .declaration target value →
      P (.expression (boundDeclared k target)))
    (h : ∀ x ∈ node.analysed, ∀ env, P (x.2.bound k inStatic env)) :
    ∀ q ∈ (node.bound k inStatic env).inner, P q := by
  have hchildren := node.forall_children_bound env hdeclared h
  cases node
  case call object method arguments safe implicitReceiver =>
    rcases bound_call_cases k inStatic env object method arguments safe implicitReceiver with
      ⟨-, owner, hcall⟩ | hcall
    all_goals
      rw [hcall] at hchildren ⊢
      exact hchildren
  case elvis condition value otherwise =>
    simp only [analysed, List.forall_mem_cons, Part.bound] at h
    simp [ExpressionNode.bound, inner, h]
  case closure parameters code =>
    simp only [analysed, List.forall_mem_cons, Part.bound] at h
    rw [ExpressionNode.bound, inner, defaultValues_boundClosureParameters]
    refine List.forall_mem_append.mpr ⟨?_, List.forall_mem_singleton.mpr (h.1 _)⟩
    exact fun q hq => hsame q (List.mem_append_left _ hq)
  case interpolation fragments values =>
    simp only [analysed, List.forall_mem_map, List.forall_mem_append] at h
    refine List.forall_mem_map.mpr (List.forall_mem_append.mpr ⟨?_, ?_⟩)
    · exact forall_mem_boundExpressions env h.1
    · exact forall_mem_boundExpressions _ h.2
  all_goals exact hchildren

theorem Part.forall_inner_bound {p : Part} (env : Scope) (hsame : ∀ q ∈ p.inner, P q)
    (hdeclared : ∀ target value span inferred, p = .expression ⟨.declaration target value, span,
      inferred⟩ → P (.expression (boundDeclared k target)))
    (h : ∀ x ∈ p.analysed, ∀ env, P (x.2.bound k inStatic env)) :
    ∀ q ∈ (p.bound k inStatic env).inner, P q := by
  rcases p with ⟨node, span, inferred⟩ | s | c | c
  · refine node.forall_inner_bound env hsame (fun target value hnode => ?_) h
    exact hdeclared target value span inferred (by rw [hnode])
  all_goals exact Part.forall_children_bound env hdeclared h

/-- What holds everywhere in tidy code once it is bound. -/
theorem Part.everywhere_bound (hread : ∀ q : Part, q.Regular → P q)
    (hbound : ∀ (q : Part) (env : Scope), q.Regular → P (q.bound k inStatic env))
    (hdeclared : ∀ target : Expression, (Part.expression target).Regular →
      target.variableName?.isSome = true → P (.expression (boundDeclared k target)))
    (p : Part) (env : Scope) (h : p.Tidy) : (Piece.code (p.bound k inStatic env)).Everywhere P := by
  refine .code (hbound p env h.regular) (Part.forall_inner_bound env ?_ ?_ fun x hx env => ?_)
  · exact fun q hq => (h.inner (List.mem_map_of_mem hq)).mono hread
  · rintro target value span inferred rfl
    have htarget : (Part.expression target).Tidy := h.inner (.head _)
    have hname : target.variableName?.isSome = true := h.regular.1
    obtain ⟨name, declared, origin, span, inferred, rfl⟩ :=
      Expression.eq_variableRef_of_variableName? hname
    exact .code (hdeclared _ htarget.regular hname) (List.forall_mem_nil _)
  · exact Part.everywhere_bound hread hbound hdeclared x.2 env (h.analysed hx)
termination_by sizeOf p
decreasing_by exact Part.sizeOf_lt_of_mem_analysed hx

/-! ### Members -/

section

variable (hread : ∀ q : Part, q.Regular → P q)
  (hbound : ∀ (k : ClassContext) (inStatic : Bool) (q : Part) (env : Scope), q.Regular →
    P (q.bound k inStatic env))
  (hdeclared : ∀ (k : ClassContext) (target : Expression), (Part.expression target).Regular →
    target.variableName?.isSome = true → P (.expression (boundDeclared k target)))

include hread hbound hdeclared

theorem everywhere_boundParameters (env : Scope) {ps : List Parameter}
    (h : ∀ q ∈ (defaultValues ps).map Piece.ofExpression, q.Tidy) :
    ∀ q ∈ (defaultValues (boundParameters k inStatic env ps)).map Piece.ofExpression,
      q.Everywhere P := by
  induction ps generalizing env with
  | nil => exact List.forall_mem_nil _
  | cons p ps ih =>
    cases hp : p.defaultValue with
    | none =>
      simp only [boundParameters, defaultValues, List.filterMap_cons, hp, Option.map_none] at h ⊢
      exact ih _ h
    | some e =>
      simp only [boundParameters, defaultValues, List.filterMap_cons, hp, Option.map_some,
        List.map_cons, List.forall_mem_cons] at h ⊢
      refine ⟨?_, ih _ h.2⟩
      exact Part.everywhere_bound hread (hbound k inStatic) (hdeclared k) (.expression e) env h.1

theorem everywhere_boundCode (env : Scope) {code : Option Statement}
    (h : ∀ q ∈ code.toList.map Piece.ofStatement, q.Tidy) :
    ∀ q ∈ (code.map (·.bound k inStatic env)).toList.map Piece.ofStatement, q.Everywhere P := by
  cases code with
  | none => exact List.forall_mem_nil _
  | some s =>
    have hs : s.Tidy := h _ (.head _)
    exact List.forall_mem_singleton.mpr
      (Part.everywhere_bound hread (hbound k inStatic) (hdeclared k) (.statement s) env hs)

/-- What is inside a constructor or a method: annotations, which are left alone, then parameters,
then code. -/
theorem everywhere_boundMember (env : Scope) {annotations : List Annotation} {ps : List Parameter}
    {code : Option Statement}
    (h : ∀ q ∈ annotations.map Piece.annotated ++ (defaultValues ps).map Piece.ofExpression ++
      code.toList.map Piece.ofStatement, q.Tidy) :
    ∀ q ∈ annotations.map Piece.annotated ++
      (defaultValues (boundParameters k inStatic env ps)).map Piece.ofExpression ++
      (code.map (·.bound k inStatic (parameterEnvironment env ps))).toList.map Piece.ofStatement,
      q.Everywhere P := by
  obtain ⟨h, hcode⟩ := List.forall_mem_append.mp h
  obtain ⟨hannotations, hparameters⟩ := List.forall_mem_append.mp h
  refine List.forall_mem_append.mpr ⟨List.forall_mem_append.mpr ⟨?_, ?_⟩, ?_⟩
  · exact fun q hq => (hannotations q hq).mono hread
  · exact everywhere_boundParameters hread hbound hdeclared env hparameters
  · exact everywhere_boundCode hread hbound hdeclared _ hcode

/-- What holds everywhere in the members of a tidy class once its names are resolved. -/
theorem CompiledClass.everywhere_bound (declared : List String) {c : CompiledClass} (h : c.Tidy) :
    ∀ p ∈ (c.bound declared).pieces, p.Everywhere P := by
  obtain ⟨hfields, hconstructors, hmethods⟩ := forall_mem_pieces.mp h
  rw [bound_eq]
  refine forall_mem_pieces.mpr ⟨List.forall_mem_map.mpr fun f hf => ?_,
    List.forall_mem_map.mpr fun x hx => ?_, List.forall_mem_map.mpr fun m hm => ?_⟩
  · have hinner : ∀ q ∈ (Piece.field f).inner, q.Tidy := fun q hq => (hfields f hf).inner hq
    obtain ⟨hannotations, hinitial⟩ := List.forall_mem_append.mp hinner
    refine .whole (fun _ h => by cases h) (List.forall_mem_append.mpr ⟨?_, ?_⟩)
    · exact fun q hq => (hannotations q hq).mono hread
    rw [Field.bound]
    cases hf : f.initial with
    | none => exact List.forall_mem_nil _
    | some e =>
      rw [hf] at hinitial
      have he : e.Tidy := hinitial _ (.head _)
      exact List.forall_mem_singleton.mpr
        (Part.everywhere_bound hread (hbound _ _) (hdeclared _) (.expression e) _ he)
  · exact .whole (fun _ h => by cases h)
      (everywhere_boundMember hread hbound hdeclared _ fun q hq => (hconstructors x hx).inner hq)
  · exact .whole (fun _ h => by cases h)
      (everywhere_boundMember hread hbound hdeclared _ fun q hq => (hmethods m hm).inner hq)

end

end ScriptOutline
