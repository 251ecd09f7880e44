/-
ScriptOutline/Proofs/Counts.lean

What nodes tell of their children.  Some rows count parts or tell whether a clause is there:
`statement_count`, `size`, `catch_count`, `has_finally`, `case_count`, `has_default` and
`has_else`.  They are filled in without looking at what is shown, and what is shown is chosen
without looking at the rows.  The two agree for code that is complete (`Part.Complete.counted`), but
for one case: an `else` branch that is a `;` is shown as a third child, and `has_else` calls it
missing.

Code is complete when it is read, and stays so: binding and types make a placeholder of nothing
else, and nothing else of a placeholder (`Part.persistent_complete`).  So the rows of all nodes
agree with the children, whatever a session has been asked before (`Session.compile_counted`).
-/
import ScriptOutline.Proofs.Persistent
import ScriptOutline.Proofs.Reset
import ScriptOutline.Proofs.SettledOutline

namespace ScriptOutline

/-! ### Completeness in all phases -/

section Bound

variable {k : ClassContext} {inStatic : Bool}

/-- Binding makes a placeholder of nothing else, and nothing else of a placeholder. -/
theorem Part.isPlaceholder_bound (p : Part) (env : Scope) :
    (p.bound k inStatic env).isPlaceholder = p.isPlaceholder := by
  rcases p with ⟨node, span, inferred⟩ | ⟨node, span⟩ | c | c
  · cases node
    case call =>
      exact ExpressionNode.bound_call_induction
        (P := fun node => (Part.expression ⟨node, span, inferred⟩).isPlaceholder = false)
        (fun _ _ _ _ _ => rfl) (fun _ _ _ => rfl) k inStatic env _ _ _ _ _
    all_goals rfl
  · cases node <;> rfl
  · rfl
  · rfl

theorem Part.Present.bound {p : Part} (h : p.Present) (env : Scope) :
    (p.bound k inStatic env).Present := (p.isPlaceholder_bound env).trans h

theorem Statement.isEmpty_bound (s : Statement) (env : Scope) :
    (s.bound k inStatic env).isEmpty = s.isEmpty := by
  obtain ⟨node, span⟩ := s
  cases node <;> rfl

theorem Statement.MissingIfEmpty.bound {s : Statement} (h : s.MissingIfEmpty) (env : Scope) :
    (s.bound k inStatic env).MissingIfEmpty := by
  rw [MissingIfEmpty, s.isEmpty_bound]
  exact fun hempty => ((Part.statement s).isPlaceholder_bound env).trans (h hempty)

theorem ExpressionNode.Complete.bound {node : ExpressionNode} (h : node.Complete) (env : Scope) :
    (node.bound k inStatic env).Complete := by
  cases node
  case call =>
    exact bound_call_induction (fun _ _ _ _ _ => trivial) (fun _ _ _ => trivial) k inStatic env
      _ _ _ _ _
  case sequence form items =>
    exact fun hform => forall_mem_boundExpressions env fun e he env =>
      Part.Present.bound (h hform e he) env
  all_goals trivial

theorem StatementNode.Complete.bound {node : StatementNode} (h : node.Complete) (env : Scope) :
    (node.bound k inStatic env).Complete := by
  cases node
  case block statements declared =>
    have hparts : ∀ q ∈ (boundStatements k inStatic env.enter statements).map Part.statement,
        q.Present := by
      rw [boundStatements_parts]
      exact forall_mem_boundParts (List.forall_mem_map.mpr fun s hs env =>
        Part.Present.bound (h s hs) env)
    exact List.forall_mem_map.mp hparts
  case branch condition whenTrue whenFalse => exact ⟨h.1.bound _, h.2.bound _⟩
  case tryCatch body catches finallyBlock => exact ⟨h.1.bound _, h.2.bound _⟩
  case switch subject cases defaultBlock => exact ⟨h.1.bound _, h.2.bound _⟩
  all_goals trivial

end Bound

theorem Part.Present.infer {p : Part} (h : p.Present) : p.infer.Present :=
  p.isPlaceholder_infer.trans h

theorem Statement.MissingIfEmpty.infer {s : Statement} (h : s.MissingIfEmpty) :
    s.infer.MissingIfEmpty := by
  rw [MissingIfEmpty, s.isEmpty_infer]
  exact fun hempty => (Part.statement s).isPlaceholder_infer.trans (h hempty)

theorem ExpressionNode.Complete.infer {node : ExpressionNode} (h : node.Complete) :
    node.infer.Complete := by
  cases node
  case sequence form items =>
    rw [ExpressionNode.infer, inferExpressions_eq_map]
    exact fun hform => List.forall_mem_map.mpr fun e he => Part.Present.infer (h hform e he)
  all_goals trivial

theorem StatementNode.Complete.infer {node : StatementNode} (h : node.Complete) :
    node.infer.Complete := by
  cases node
  case block statements declared =>
    rw [StatementNode.infer, inferStatements_eq_map]
    exact List.forall_mem_map.mpr fun s hs => Part.Present.infer (h s hs)
  case branch condition whenTrue whenFalse => exact ⟨h.1.infer, h.2.infer⟩
  case tryCatch body catches finallyBlock => exact ⟨h.1.infer, h.2.infer⟩
  case switch subject cases defaultBlock => exact ⟨h.1.infer, h.2.infer⟩
  all_goals trivial

/-- No phase leaves a placeholder where something was, or takes one away. -/
theorem Part.persistent_complete : Part.Persistent Part.Complete where
  read _ := Part.Regular.complete
  bound k inStatic p env h := by
    have hcomplete := h.complete
    rcases p with ⟨node, span, inferred⟩ | ⟨node, span⟩ | c | c
    · exact ExpressionNode.Complete.bound hcomplete env
    · exact StatementNode.Complete.bound hcomplete env
    · trivial
    · trivial
  declared k target _ hname := by
    obtain ⟨name, declared, origin, span, inferred, rfl⟩ :=
      Expression.eq_variableRef_of_variableName? hname
    trivial
  infer p h := by
    rcases p with ⟨node, span, inferred⟩ | ⟨node, span⟩ | c | c
    · exact ExpressionNode.Complete.infer h
    · exact StatementNode.Complete.infer h
    · trivial
    · trivial

/-! ### Rows and children -/

theorem Kind.simpleName_injective : Function.Injective Kind.simpleName := by
  have hnodup : (Kind.all.map Kind.simpleName).Nodup := by decide +kernel
  exact fun k k' h => List.inj_on_of_nodup_map hnodup k.mem_all k'.mem_all h

namespace Outline

/-- The rows of a node of the kind agree with its children.  An `if` has a third child if it has an
`else` branch, but also if that branch is an empty statement, which does not count as one; `kinds`
is the node at the same place where nodes are labelled with their kinds, and tells. -/
def Counts (n kinds : Outline) : Kind → Prop
  | .ifStatement => ∃ hasElse : Bool,
    n.values "has_else" = [some (toString hasElse)] ∧
      (kinds.children[2]?.map label = some "EmptyStatement" →
        hasElse = false ∧ n.children.length = 3) ∧
      (kinds.children[2]?.map label ≠ some "EmptyStatement" →
        n.children.length = 2 + hasElse.toNat)
  | .tryCatchStatement => ∃ (catches : Nat) (hasFinally : Bool),
    n.values "catch_count" = [some (toString catches)] ∧
      n.values "has_finally" = [some (toString hasFinally)] ∧
      n.children.length = 1 + catches + hasFinally.toNat
  | .switchStatement => ∃ (cases : Nat) (hasDefault : Bool),
    n.values "case_count" = [some (toString cases)] ∧
      n.values "has_default" = [some (toString hasDefault)] ∧
      n.children.length = 1 + cases + hasDefault.toNat
  | .blockStatement => n.values "statement_count" = [some (toString n.children.length)]
  | .tupleExpression | .argumentListExpression | .listExpression | .mapExpression
  | .namedArgumentListExpression => n.values "size" = [some (toString n.children.length)]
  | _ => True

end Outline

section Rows

open Outline

variable (labels : LabelMapping)

theorem Row.value_ofBool (name : String) (value : Bool) :
    (Row.ofBool name value).value = some (toString value) := by cases value <;> rfl

theorem Statement.isEmpty_of_isPlaceholder {s : Statement}
    (h : (Part.statement s).isPlaceholder = true) : s.isEmpty = true := by
  obtain ⟨node, span⟩ := s
  cases node
  case empty => rfl
  all_goals cases h

/-- A statement that is not empty is present. -/
theorem Statement.present_of_isEmpty {s : Statement} (h : s.isEmpty = false) :
    (Part.statement s).Present :=
  Bool.eq_false_iff.mpr fun hp => Bool.eq_false_iff.mp h (isEmpty_of_isPlaceholder hp)

/-- The label of a statement tells whether it is empty. -/
theorem Statement.label_node (s : Statement) :
    ((Part.statement s).node .empty).label = "EmptyStatement" ↔ s.isEmpty = true := by
  obtain ⟨node, span⟩ := s
  show node.kind.simpleName = _ ↔ _
  cases node <;> simp [StatementNode.kind, Kind.simpleName, Statement.isEmpty]

namespace Part

variable {p : Part}

theorem length_children_node (h : ∀ q ∈ p.children, q.Present) :
    (p.node labels).children.length = p.children.length :=
  (congrArg List.length (forests_eq labels h)).trans (List.length_map _)

/-- A row that counts the direct parts, if they are all present. -/
theorem values_length_children (h : ∀ q ∈ p.children, q.Present) {name : String} {length : Nat}
    (hlength : p.children.length = length)
    (hrow : (p.rows.filter (·.name = name)).map Row.value = [some (toString length)]) :
    (p.node labels).values name = [some (toString (p.node labels).children.length)] := by
  rw [length_children_node labels h, hlength]
  exact values_ofNode hrow

/-- Parts that are there, and behind them a clause that may be missing. -/
theorem length_children_node_append {qs : List Part} {s : Statement}
    (hp : p.children = qs ++ [.statement s]) (hqs : ∀ q ∈ qs, q.Present)
    (hs : s.MissingIfEmpty) :
    (p.node labels).children.length = qs.length + (!s.isEmpty).toNat := by
  have hlast : ((statement s).forest labels).length = (!s.isEmpty).toNat := by
    cases hempty : s.isEmpty with
    | true => rw [forest_of_isPlaceholder labels (hs hempty)]; rfl
    | false => rw [(Statement.present_of_isEmpty hempty).forest_eq labels]; rfl
  show (p.children.flatMap (·.forest labels)).length = _
  rw [hp, List.flatMap_append, List.length_append, forests_eq labels hqs, List.length_map,
    List.flatMap_singleton, hlast]

end Part

theorem ExpressionNode.Complete.counts_sequence {form : Sequence} {items : List Expression}
    {span : Span} {inferred : Option String} (h : (ExpressionNode.sequence form items).Complete) :
    ((Part.expression ⟨.sequence form items, span, inferred⟩).node labels).Counts
      ((Part.expression ⟨.sequence form items, span, inferred⟩).node .empty) form.kind := by
  have hsize (hform : form ≠ .clauses) :
      ((Part.expression ⟨.sequence form items, span, inferred⟩).node labels).values "size" =
        [some (toString ((Part.expression ⟨.sequence form items, span, inferred⟩).node
          labels).children.length)] := by
    refine Part.values_length_children labels ?_ (List.length_map _) rfl
    exact List.forall_mem_map.mpr (h hform)
  cases form
  case clauses => trivial
  all_goals exact hsize nofun

namespace StatementNode.Complete

variable {span : Span}

theorem counts_block {statements : List Statement} {declared : Option (List String)}
    (h : (StatementNode.block statements declared).Complete) :
    ((Part.statement ⟨.block statements declared, span⟩).node labels).Counts
      ((Part.statement ⟨.block statements declared, span⟩).node .empty) .blockStatement := by
  refine Part.values_length_children labels ?_ (List.length_map _) rfl
  exact List.forall_mem_map.mpr h

/-- The third child of an `if` is its `else` branch, if that is present. -/
theorem counts_branch {condition : Expression} {whenTrue whenFalse : Statement}
    (h : (StatementNode.branch condition whenTrue whenFalse).Complete) :
    ((Part.statement ⟨.branch condition whenTrue whenFalse, span⟩).node labels).Counts
      ((Part.statement ⟨.branch condition whenTrue whenFalse, span⟩).node .empty)
      .ifStatement := by
  have hchildren (labels : LabelMapping) :
      ((Part.statement ⟨.branch condition whenTrue whenFalse, span⟩).node labels).children =
        (Part.expression condition).node labels :: (Part.statement whenTrue).node labels ::
          (Part.statement whenFalse).forest labels := by
    show [_, _, _].flatMap (Part.forest labels) = _
    simp only [List.flatMap_cons, List.flatMap_nil, h.1.forest_eq labels, h.2.forest_eq labels,
      List.append_nil, List.singleton_append]
  refine ⟨!whenFalse.isEmpty, values_ofNode (congrArg ([·]) (Row.value_ofBool _ _)), ?_⟩
  rw [hchildren, hchildren]
  cases hp : (Part.statement whenFalse).isPlaceholder with
  | true =>
    have hempty : whenFalse.isEmpty = true := whenFalse.isEmpty_of_isPlaceholder hp
    simp [Part.forest_of_isPlaceholder _ hp, hempty]
  | false =>
    -- what is shown is the branch, or a `;`, and the label tells which
    have hlabel := whenFalse.label_node
    simp only [Part.Present.forest_eq _ hp]
    cases hempty : whenFalse.isEmpty <;> simp [hlabel, hempty]

theorem counts_tryCatch {body finallyBlock : Statement} {catches : List CatchClause}
    (h : (StatementNode.tryCatch body catches finallyBlock).Complete) :
    ((Part.statement ⟨.tryCatch body catches finallyBlock, span⟩).node labels).Counts
      ((Part.statement ⟨.tryCatch body catches finallyBlock, span⟩).node .empty)
      .tryCatchStatement := by
  have hpresent : ∀ q ∈ Part.statement body :: catches.map Part.catchClause, q.Present :=
    List.forall_mem_cons.mpr ⟨h.1, List.forall_mem_map.mpr fun _ _ => rfl⟩
  refine ⟨catches.length, !finallyBlock.isEmpty, values_ofNode rfl,
    values_ofNode (congrArg ([·]) (Row.value_ofBool _ _)), ?_⟩
  rw [Part.length_children_node_append labels rfl hpresent h.2, List.length_cons,
    List.length_map, Nat.add_comm catches.length]

theorem counts_switch {subject : Expression} {cases : List CaseClause} {defaultBlock : Statement}
    (h : (StatementNode.switch subject cases defaultBlock).Complete) :
    ((Part.statement ⟨.switch subject cases defaultBlock, span⟩).node labels).Counts
      ((Part.statement ⟨.switch subject cases defaultBlock, span⟩).node .empty)
      .switchStatement := by
  have hpresent : ∀ q ∈ Part.expression subject :: cases.map Part.caseClause, q.Present :=
    List.forall_mem_cons.mpr ⟨h.1, List.forall_mem_map.mpr fun _ _ => rfl⟩
  refine ⟨cases.length, !defaultBlock.isEmpty, values_ofNode rfl,
    values_ofNode (congrArg ([·]) (Row.value_ofBool _ _)), ?_⟩
  rw [Part.length_children_node_append labels rfl hpresent h.2, List.length_cons,
    List.length_map, Nat.add_comm cases.length]

end StatementNode.Complete

/-- The rows of the node of complete code agree with its children. -/
theorem Part.Complete.counts {p : Part} (h : p.Complete) :
    (p.node labels).Counts (p.node .empty) p.kind := by
  rcases p with ⟨node, span, inferred⟩ | ⟨node, span⟩ | c | c
  · cases node
    case sequence form items => exact ExpressionNode.Complete.counts_sequence labels h
    case step side operation operand => cases side <;> trivial
    case wrap wrapper operand => cases wrapper <;> trivial
    case access object name accessor => cases accessor <;> trivial
    all_goals trivial
  · cases node
    case block statements declared => exact StatementNode.Complete.counts_block labels h
    case branch condition whenTrue whenFalse => exact StatementNode.Complete.counts_branch labels h
    case tryCatch body catches finallyBlock => exact StatementNode.Complete.counts_tryCatch labels h
    case switch subject cases defaultBlock => exact StatementNode.Complete.counts_switch labels h
    all_goals trivial
  · trivial
  · trivial

/-- A node of complete code, or of none, agrees with its children. -/
theorem Outline.Counterpart.counts {n kinds : Outline} {kind : Kind}
    (h : Counterpart Part.Complete labels n kinds) (hkind : kinds.label = kind.simpleName) :
    n.Counts kinds kind := by
  cases h with
  | @code p hcomplete _ =>
    obtain rfl : p.kind = kind := Kind.simpleName_injective hkind
    exact hcomplete.counts labels
  | other _ hlabel =>
    rw [hkind] at hlabel
    cases kind
    -- kinds of which something is asked are kinds of code
    case ifStatement | tryCatchStatement | switchStatement | blockStatement | tupleExpression |
        argumentListExpression | listExpression | mapExpression | namedArgumentListExpression =>
      exact absurd (by decide) hlabel
    all_goals trivial

end Rows

/-! ### Compilations -/

/-- What holds everywhere in code holds of all parts that a walk visits. -/
theorem Part.forall_mem_walk {P : Part → Prop} (p : Part) (h : (Piece.code p).Everywhere P) :
    ∀ q ∈ p.walk, P q := by
  rw [p.walk_eq, List.forall_mem_cons, List.forall_mem_flatMap]
  refine ⟨h.self, fun q hq => Part.forall_mem_walk q (h.inner ?_)⟩
  exact List.mem_map_of_mem (mem_inner_of_mem_children hq)
termination_by sizeOf p
decreasing_by exact Part.sizeOf_lt_of_mem_children hq

/-- What holds everywhere in a class holds of what its outline shows. -/
theorem CompiledClass.Everywhere.shows {P : Part → Prop} {c : CompiledClass}
    (h : c.Everywhere P) : c.Shows P := by
  obtain ⟨-, hpieces⟩ := forall_mem_contents.mp h
  obtain ⟨hfields, hconstructors, hmethods⟩ := forall_mem_pieces.mp hpieces
  refine ⟨fun f hf e he => ?_, fun x hx s hs => ?_, fun m hm s hs => ?_⟩
  · refine Part.forall_mem_walk _ ((hfields f hf).inner (List.mem_append_right _ ?_))
    exact List.mem_map_of_mem (Option.mem_toList.mpr he)
  · refine Part.forall_mem_walk _ ((hconstructors x hx).inner (List.mem_append_right _ ?_))
    exact List.mem_map_of_mem (Option.mem_toList.mpr hs)
  · refine Part.forall_mem_walk _ ((hmethods m hm).inner (List.mem_append_right _ ?_))
    exact List.mem_map_of_mem (Option.mem_toList.mpr hs)

/-- Whatever phase a compilation has reached, a persistent property is true of all code that the
outlines of its classes show. -/
theorem Compilation.shows_of_persistent {P : Part → Prop} (hP : Part.Persistent P) {α : Type}
    {name source : String} {phase : Phase} {c : Compilation α} {answers : List α}
    (h : (new name source : Compilation α).compile phase = (c, .ok answers)) :
    ∀ m ∈ c.module, ∀ k ∈ m.classes, k.Shows P := by
  intro m hm k hk
  refine CompiledClass.Everywhere.shows fun p hp => everywhere_contents hP h p ?_
  exact List.mem_append_right _ (List.mem_flatMap.mpr ⟨m, Option.mem_toList.mpr hm,
    List.mem_flatMap.mpr ⟨k, hk, hp⟩⟩)

/-! ### Sessions -/

namespace Session

/-- In the outline that a session answers, for any source and any phase and whatever it has been
asked before, the rows of every node agree with its children.  A session without templates that has
been asked the same answers with the same nodes and rows, and labels each node with its kind: there
a block has as many children as it tells statements, a list as many as its size; a `try` and a
`switch` have one for the first part, one for each clause, and one more if there is a `finally` or
`default` clause; an `if` has two, and one more if it has an `else` branch.  If its third child is
an empty statement, it has no `else` branch as far as its row goes. -/
theorem compile_counts (labels : LabelMapping) (earlier : List (String × Phase))
    (source : String) (phase : Phase) (root : Outline)
    (h : (((new labels).afterAll earlier).compile source phase).2 = .ok root) :
    ∃ kinds, (((new .empty).afterAll earlier).compile source phase).2 = .ok kinds ∧
      ∀ path n, root.get? path = some n → ∃ k, kinds.get? path = some k ∧ k.rows = n.rows ∧
        ∀ kind : Kind, k.label = kind.simpleName → n.Counts k kind := by
  obtain ⟨kinds, hkinds, hmatches⟩ := compile_counterparts labels earlier source phase root
    (fun _ _ _ hc => Compilation.shows_of_persistent Part.persistent_complete hc) h
  refine ⟨kinds, hkinds, fun path n hn => ?_⟩
  obtain ⟨k, hk, hcounterpart⟩ := hmatches path n hn
  exact ⟨k, hk, hcounterpart.rows_eq, fun kind hkind => hcounterpart.counts labels hkind⟩

/-- A `;` for the first branch, and something in the second one. -/
def emptyThen : String := "if (a) ; else b"

/-- The `else` branch is the third child, so there is a row that tells of it. -/
theorem compile_counts_emptyThen :
    ∃ root n, ((new .defaults).compile emptyThen .finalization).2 = .ok root ∧
      root.get? [0, 0] = some n ∧ n.children.length = 3 ∧ n.values "has_else" = [some "true"] := by
  have hok : ((new .defaults).compile emptyThen .finalization).2.isOk = true := by decide +kernel
  have hnode : (((new .defaults).compile emptyThen .finalization).2.toOption.bind
      (·.get? [0, 0])).map (·.children.length) = some 3 := by decide +kernel
  have hkind : (((new .empty).compile emptyThen .finalization).2.toOption.bind
      (·.get? [0, 0])).map (fun k => (k.label, k.children[2]?.map Outline.label)) =
        some ("IfStatement", some "ExpressionStatement") := by decide +kernel
  obtain ⟨s, root, hroot⟩ := Compilation.exists_of_isOk hok
  have hanswer : ((new .defaults).compile emptyThen .finalization).2 = .ok root :=
    congrArg Prod.snd hroot
  obtain ⟨kinds, hkinds, hcounts⟩ :=
    compile_counts .defaults [] emptyThen .finalization root hanswer
  have hkinds : ((new .empty).compile emptyThen .finalization).2 = .ok kinds := hkinds
  rw [hanswer] at hnode
  rw [hkinds] at hkind
  obtain ⟨n, hn, hlength⟩ := Option.map_eq_some_iff.mp hnode
  have hn : root.get? [0, 0] = some n := hn
  obtain ⟨k, hk, -, hcounts⟩ := hcounts _ n hn
  have hkind : (kinds.get? [0, 0]).map _ = _ := hkind
  rw [hk] at hkind
  obtain ⟨hlabel, hthird⟩ := Prod.mk.inj (Option.some.inj hkind)
  obtain ⟨hasElse, hrow, -, hchildren⟩ := hcounts .ifStatement hlabel
  have htwo : n.children.length = 2 + hasElse.toNat := hchildren (by rw [hthird]; decide)
  obtain rfl : hasElse = true := by
    cases hasElse with
    | true => rfl
    | false => exact absurd (hlength.symm.trans htwo) (by decide)
  exact ⟨root, n, hanswer, hn, hlength, hrow⟩

/-- Something in the first branch, and a `;` for the second one. -/
def emptyElse : String := "if (a) b else ;"

/-- The `else` branch is the third child, and the row tells that there is none. -/
theorem compile_emptyElse :
    ∃ root n, ((new .empty).compile emptyElse .conversion).2 = .ok root ∧
      root.get? [0, 0] = some n ∧ n.label = "IfStatement" ∧ n.children.length = 3 ∧
      n.values "has_else" = [some "false"] := by
  have hok : ((new .empty).compile emptyElse .conversion).2.isOk = true := by decide +kernel
  have hnode : (((new .empty).compile emptyElse .conversion).2.toOption.bind
      (·.get? [0, 0])).map (fun n => (n.label, n.children[2]?.map Outline.label)) =
        some ("IfStatement", some "EmptyStatement") := by decide +kernel
  obtain ⟨s, root, hroot⟩ := Compilation.exists_of_isOk hok
  have hanswer : ((new .empty).compile emptyElse .conversion).2 = .ok root :=
    congrArg Prod.snd hroot
  -- without templates the outline is its own counterpart
  obtain ⟨kinds, hkinds, hmatches⟩ :=
    compile_counterparts .empty [] emptyElse .conversion root
      (fun _ _ _ hc => Compilation.shows_of_persistent Part.persistent_complete hc) hanswer
  obtain rfl : root = kinds := Except.ok.inj (hanswer.symm.trans hkinds)
  rw [hanswer] at hnode
  obtain ⟨n, hn, hlabels⟩ := Option.map_eq_some_iff.mp hnode
  have hn : root.get? [0, 0] = some n := hn
  obtain ⟨hlabel, hthird⟩ := Prod.mk.inj hlabels
  obtain ⟨k, hk, hcounterpart⟩ := hmatches _ n hn
  obtain rfl : n = k := Option.some.inj (hn.symm.trans hk)
  have hcounts : n.Counts n .ifStatement := hcounterpart.counts .empty hlabel
  obtain ⟨hasElse, hrow, hempty, -⟩ := hcounts
  obtain ⟨rfl, hlength⟩ := hempty hthird
  exact ⟨root, n, hanswer, hn, hlabel, hlength, hrow⟩

end Session

end ScriptOutline
