/-
ScriptOutline/Proofs/SettledOutline.lean

What the outline that a session answers shows of settled code.  A node of settled code has the rows
that names fill in (`Part.showsSettled`); all other nodes have other kinds.  The kind of a node is
the label of its counterpart in the outline of a session without templates, so the nodes of an
answer are compared with their counterparts (`Outline.Counterpart.showsSettled`).
-/
import ScriptOutline.Proofs.Counterpart
import ScriptOutline.Proofs.Settled

namespace ScriptOutline

/-! ### Rows of a name -/

namespace Outline

/-- The values of the rows of a name. -/
def values (t : Outline) (name : String) : List (Option String) :=
  (t.rows.filter (·.name = name)).map Row.value

/-- A single row of a name is the only one of that name when rows are sorted. -/
theorem values_ofNode {labels : LabelMapping} {kind : Kind} {rows : List Row}
    {children : List Outline} {name : String} {value : Option String}
    (h : (rows.filter (·.name = name)).map Row.value = [value]) :
    (ofNode labels kind rows children).values name = [value] := by
  have hsorted : List.Perm (sortRows rows) rows := List.mergeSort_perm rows _
  rw [← List.perm_singleton, ← h]
  exact (hsorted.filter _).map _

/-- What a node of the kind shows if names are settled: a variable shows an origin, a class name
and a cast show a class, and so does a constructor call, unless it shows that it is a special
one. -/
structure ShowsSettled (t : Outline) (kind : String) : Prop where
  ofVariable : kind = "VariableExpression" → ∃ origin, t.values "origin" = [some origin]
  ofClass : kind = "ClassExpression" ∨ kind = "CastExpression" →
    ∃ resolved, t.values "resolved_type" = [some resolved]
  ofConstructorCall : kind = "ConstructorCallExpression" →
    (∃ call, t.values "special_call" = [some call]) ∨
      ∃ resolved, t.values "special_call" = [none] ∧ t.values "resolved_type" = [some resolved]

namespace ShowsSettled

variable {t : Outline} {kind : String} {value resolved : String}

theorem variableExpression (h : t.values "origin" = [some value]) :
    t.ShowsSettled "VariableExpression" :=
  ⟨fun _ => ⟨value, h⟩, fun hk => absurd hk (by decide), fun hk => absurd hk (by decide)⟩

theorem classExpression (h : t.values "resolved_type" = [some resolved]) :
    t.ShowsSettled "ClassExpression" :=
  ⟨fun hk => absurd hk (by decide), fun _ => ⟨resolved, h⟩, fun hk => absurd hk (by decide)⟩

theorem castExpression (h : t.values "resolved_type" = [some resolved]) :
    t.ShowsSettled "CastExpression" :=
  ⟨fun hk => absurd hk (by decide), fun _ => ⟨resolved, h⟩, fun hk => absurd hk (by decide)⟩

theorem specialCall (h : t.values "special_call" = [some value]) :
    t.ShowsSettled "ConstructorCallExpression" :=
  ⟨fun hk => absurd hk (by decide), fun hk => absurd hk (by decide), fun _ => .inl ⟨value, h⟩⟩

theorem constructorCall (h : t.values "special_call" = [none])
    (hresolved : t.values "resolved_type" = [some resolved]) :
    t.ShowsSettled "ConstructorCallExpression" :=
  ⟨fun hk => absurd hk (by decide), fun hk => absurd hk (by decide),
    fun _ => .inr ⟨resolved, h, hresolved⟩⟩

/-- Other nodes show no names. -/
theorem of_ne (h : kind ∉ ["VariableExpression", "ClassExpression", "CastExpression",
    "ConstructorCallExpression"]) : t.ShowsSettled kind := by
  simp only [List.mem_cons, List.not_mem_nil, or_false, not_or] at h
  obtain ⟨hvariable, hclass, hcast, hconstruct⟩ := h
  exact ⟨fun hk => absurd hk hvariable, fun hk => absurd hk (not_or.mpr ⟨hclass, hcast⟩),
    fun hk => absurd hk hconstruct⟩

theorem of_kind {kind : Kind} (h : kind ∉ [Kind.variableExpression, .classExpression,
    .castExpression, .constructorCallExpression]) : t.ShowsSettled kind.simpleName := by
  have hall : ∀ kind ∈ Kind.all, kind ∉ [Kind.variableExpression, .classExpression,
      .castExpression, .constructorCallExpression] → kind.simpleName ∉ ["VariableExpression",
      "ClassExpression", "CastExpression", "ConstructorCallExpression"] := by decide
  exact of_ne (hall kind kind.mem_all h)

end ShowsSettled

end Outline

open Outline

variable (labels : LabelMapping)

/-! ### Code -/

/-- The node of settled code shows that it is. -/
theorem Part.showsSettled {p : Part} (h : p.Settled) (children : List Outline) :
    (Outline.ofNode labels p.kind p.rows children).ShowsSettled p.kind.simpleName := by
  have hsome {resolved : Option String} (h : resolved.isSome = true) :
      ∃ name, [resolved] = [some name] := by
    obtain ⟨name, rfl⟩ := Option.isSome_iff_exists.mp h
    exact ⟨name, rfl⟩
  rcases p with ⟨node, span, inferred⟩ | ⟨node, span⟩ | c | c
  · cases node
    case variableRef name declared origin =>
      obtain ⟨origin, rfl⟩ := Option.isSome_iff_exists.mp h
      exact .variableExpression (values_ofNode rfl)
    case classRef type =>
      obtain ⟨name, hname⟩ := hsome h
      exact .classExpression (values_ofNode hname)
    case cast target operand coerce =>
      obtain ⟨name, hname⟩ := hsome h
      exact .castExpression (values_ofNode hname)
    case construct target arguments special =>
      cases special with
      | some special => exact .specialCall (values_ofNode rfl)
      | none =>
        obtain ⟨name, hname⟩ := hsome h
        exact .constructorCall (values_ofNode rfl) (values_ofNode hname)
    case step side operation operand =>
      refine .of_kind ?_
      cases side <;> simp [kind, Expression.kind, ExpressionNode.kind]
    case wrap wrapper operand =>
      refine .of_kind ?_
      cases wrapper <;> simp [kind, Expression.kind, ExpressionNode.kind, Wrapper.kind]
    case sequence form items =>
      refine .of_kind ?_
      cases form <;> simp [kind, Expression.kind, ExpressionNode.kind, Sequence.kind]
    case access object name accessor =>
      refine .of_kind ?_
      cases accessor <;> simp [kind, Expression.kind, ExpressionNode.kind]
    all_goals exact .of_kind (by simp [kind, Expression.kind, ExpressionNode.kind])
  · refine .of_kind ?_
    cases node <;> simp [kind, Statement.kind, StatementNode.kind]
  · exact ShowsSettled.of_ne (show "CatchStatement" ∉ _ by decide)
  · exact ShowsSettled.of_ne (show "CaseStatement" ∉ _ by decide)

/-- A node and its counterpart show that the code is settled, if it is code at all. -/
theorem Outline.Counterpart.showsSettled {n k : Outline}
    (h : Counterpart Part.Settled labels n k) : n.ShowsSettled k.label := by
  cases h with
  | code hsettled _ => exact Part.showsSettled labels hsettled _
  | other _ hlabel =>
    have hcode : ["VariableExpression", "ClassExpression", "CastExpression",
        "ConstructorCallExpression"] ⊆ codeLabels := by decide
    exact .of_ne fun hmem => hlabel (hcode hmem)

/-- The code of a settled class is all that its outline shows. -/
theorem CompiledClass.Settled.shows {c : CompiledClass} (h : c.Settled) : c.Shows Part.Settled :=
  ⟨h.field, h.constructor, h.method⟩

/-! ### Sessions -/

namespace Session

/-- From semantic analysis on, the outline that a session answers shows names that are settled,
whatever it has been asked before.  A session without templates that has been asked the same
answers with the same nodes and rows, and labels each node with its kind.  Every node of a variable
has an origin, every node of a class name or a cast has the class it stands for, and so has every
constructor call that is not marked as a call of `this` or `super`; each has one row for it. -/
theorem compile_showsSettled (labels : LabelMapping) (earlier : List (String × Phase))
    (source : String) (phase : Phase) (root : Outline) (hphase : .semanticAnalysis ≤ phase)
    (h : (((new labels).afterAll earlier).compile source phase).2 = .ok root) :
    ∃ kinds, (((new .empty).afterAll earlier).compile source phase).2 = .ok kinds ∧
      ∀ path n, root.get? path = some n → ∃ k, kinds.get? path = some k ∧ k.rows = n.rows ∧
        (k.label = "VariableExpression" → ∃ origin, n.values "origin" = [some origin]) ∧
        (k.label = "ClassExpression" ∨ k.label = "CastExpression" →
          ∃ resolved, n.values "resolved_type" = [some resolved]) ∧
        (k.label = "ConstructorCallExpression" →
          (∃ call, n.values "special_call" = [some call]) ∨
            ∃ resolved, n.values "special_call" = [none] ∧
              n.values "resolved_type" = [some resolved]) := by
  have hshows : ∀ name c answers,
      (Compilation.new name source : Compilation Unit).compile phase = (c, .ok answers) →
        ∀ m ∈ c.module, ∀ k ∈ m.classes, k.Shows Part.Settled := by
    intro name c answers hc m hm k hk
    obtain ⟨m, hmodule, hsettled⟩ := Compilation.compile_settled hphase hc
    obtain rfl : m = _ := Option.some.inj (hmodule.symm.trans hm)
    exact (hsettled k hk).shows
  obtain ⟨kinds, hkinds, hmatches⟩ :=
    compile_counterparts labels earlier source phase root hshows h
  refine ⟨kinds, hkinds, fun path n hn => ?_⟩
  obtain ⟨k, hk, hcounterpart⟩ := hmatches path n hn
  have hnode := hcounterpart.showsSettled labels
  exact ⟨k, hk, hcounterpart.rows_eq, hnode.ofVariable, hnode.ofClass, hnode.ofConstructorCall⟩

/-- A property whose setter is made by a phase, and a statement. -/
def madeSetter : String := "class A \x7b def x = (Object) new A() \x7d\ny = A.class"

/-- The value that the setter sets is a variable with an origin. -/
theorem compile_showsSettled_setter :
    ∃ root n origin, ((new .defaults).compile madeSetter .finalization).2 = .ok root ∧
      root.get? [2, 1, 1, 0, 0, 0, 1] = some n ∧ n.values "origin" = [some origin] := by
  have hok : ((new .defaults).compile madeSetter .finalization).2.isOk = true := by decide +kernel
  have hnode : (((new .defaults).compile madeSetter .finalization).2.toOption.bind
      (·.get? [2, 1, 1, 0, 0, 0, 1])).isSome = true := by decide +kernel
  have hlabel : (((new .empty).compile madeSetter .finalization).2.toOption.bind
      (·.get? [2, 1, 1, 0, 0, 0, 1])).map Outline.label = some "VariableExpression" := by
    decide +kernel
  obtain ⟨s, root, hroot⟩ := Compilation.exists_of_isOk hok
  have hanswer : ((new .defaults).compile madeSetter .finalization).2 = .ok root :=
    congrArg Prod.snd hroot
  obtain ⟨kinds, hkinds, hshows⟩ :=
    compile_showsSettled .defaults [] madeSetter .finalization root (by decide) hanswer
  have hkinds : ((new .empty).compile madeSetter .finalization).2 = .ok kinds := hkinds
  rw [hanswer] at hnode
  rw [hkinds] at hlabel
  obtain ⟨n, hn⟩ := Option.isSome_iff_exists.mp hnode
  have hn : root.get? [2, 1, 1, 0, 0, 0, 1] = some n := hn
  obtain ⟨k, hk, -, hvariable, -⟩ := hshows _ n hn
  have hlabel : (kinds.get? [2, 1, 1, 0, 0, 0, 1]).map Outline.label = _ := hlabel
  rw [hk] at hlabel
  obtain ⟨origin, horigin⟩ := hvariable (Option.some.inj hlabel)
  exact ⟨root, n, origin, hanswer, hn, horigin⟩

end Session

end ScriptOutline
