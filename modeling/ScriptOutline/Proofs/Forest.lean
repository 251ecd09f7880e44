/-
ScriptOutline/Proofs/Forest.lean

The visitor that builds the outline of code keeps one current node and swaps it for another
one on the way down.  `Part.forest` says by plain recursion what comes of it: every part of
the code is one node, of its own kind, above the forests of its direct parts in reading order;
only the placeholders for what is missing have no node.

A visit is described by the nodes that it adds to the current one (`Build.Adds`).  Three facts
about the callbacks carry the proof:

* a callback expects exactly the kind of the node that it is chosen for, and the general
  callback that it goes on through expects another one (`Part.callback_spec`);
* so the node is shown once, and the second callback passes it by (`Callback.run_adds`);
* below the node, its direct parts are visited in reading order (`Part.visit_eq`).

Main results: the outline of code is its forest, and the nodes of a forest in pre-order are
the parts that are shown, each one once, in reading order (`outline_eq_forest`).
-/
import ScriptOutline.Outline.Code

namespace ScriptOutline

/-! ### Forests -/

/-- The kind of a part. -/
def Part.kind : Part → Kind
  | .expression e => e.kind
  | .statement s => s.kind
  | .catchClause _ => .catchStatement
  | .caseClause _ => .caseStatement

/-- The rows of a part. -/
def Part.rows : Part → List Row
  | .expression e => e.rows
  | .statement s => s.rows
  | .catchClause c => c.rows
  | .caseClause c => c.rows

/-- The part is a placeholder: a missing expression, or an empty statement that spans no
character. -/
def Part.isPlaceholder : Part → Bool
  | .expression ⟨.empty, _, _⟩ => true
  | .statement ⟨.empty, span⟩ => span.isEmpty
  | _ => false

/-- The trees of a part: one node above the trees of its direct parts, or none for a
placeholder. -/
def Part.forest (labels : LabelMapping) (p : Part) : List Outline :=
  if p.isPlaceholder then []
  else
    [.ofNode labels p.kind p.rows
      (p.children.attach.flatMap fun ⟨q, _⟩ => q.forest labels)]
termination_by sizeOf p
decreasing_by exact Part.sizeOf_lt_of_mem_children ‹_›

theorem Part.forest_eq (labels : LabelMapping) (p : Part) :
    p.forest labels =
      if p.isPlaceholder then []
      else [.ofNode labels p.kind p.rows (p.children.flatMap (·.forest labels))] := by
  rw [Part.forest, List.flatMap_subtype (g := fun q => q.forest labels) (fun _ _ => rfl),
    List.unattach_attach]

theorem Part.walk_eq (p : Part) : p.walk = p :: p.children.flatMap Part.walk := by
  rw [Part.walk, List.flatMap_subtype (g := Part.walk) (fun _ _ => rfl), List.unattach_attach]

/-- A placeholder has no parts. -/
theorem Part.children_eq_nil_of_isPlaceholder {p : Part} (h : p.isPlaceholder = true) :
    p.children = [] := by
  rcases p with ⟨node, span, inferred⟩ | ⟨node, span⟩ | c | c
  · cases node
    case empty => rfl
    all_goals cases h
  · cases node
    case empty => rfl
    all_goals cases h
  · cases h
  · cases h

/-! ### What a visit adds -/

namespace Build

/-- The visit gives the current node some more children and changes nothing else. -/
def Adds (visit : Build Unit) (ts : List Outline) : Prop :=
  ∀ t : Outline, visit.run t = ((), { t with children := t.children ++ ts })

theorem adds_pure : Adds (pure ()) [] := by
  rintro ⟨label, rows, children⟩
  rw [List.append_nil]
  rfl

theorem Adds.then {first next : Build Unit} {ts us : List Outline} (hf : Adds first ts)
    (hn : Adds next us) : Adds (do first; next) (ts ++ us) := by
  intro t
  show next.run (first.run t).2 = _
  rw [hf t, hn, List.append_assoc]

/-- Visits one after the other add their nodes one after the other. -/
theorem adds_runAll {α : Type} (visit : α → Build Unit) (forest : α → List Outline) :
    ∀ xs : List α, (∀ x ∈ xs, Adds (visit x) (forest x)) →
      Adds (runAll (xs.map visit)) (xs.flatMap forest)
  | [], _ => adds_pure
  | x :: rest, h => by
    rw [List.flatMap_cons]
    exact (h x List.mem_cons_self).then
      (adds_runAll visit forest rest fun y hy => h y (List.mem_cons_of_mem x hy))

/-- A node of the expected kind becomes the last child of the current one, above what is
added on the way down. -/
theorem Adds.addNode {descend : Build Unit} {ts : List Outline} (h : Adds descend ts)
    (labels : LabelMapping) (node : Shown) :
    Adds (Build.addNode labels node node.kind descend)
      [.ofNode labels node.kind node.rows ts] := by
  intro t
  have hd := h (.ofNode labels node.kind node.rows [])
  rw [Build.addNode, if_neg (not_not_intro rfl)]
  show ((), { t with children := t.children ++ [(descend.run _).2] }) = _
  rw [hd]
  rfl

/-- A node of another kind is passed by. -/
theorem addNode_of_ne {labels : LabelMapping} {node : Shown} {expected : Kind}
    (h : expected ≠ node.kind) (descend : Build Unit) :
    addNode labels node expected descend = descend := by
  rw [addNode, if_pos (Ne.symm h)]

theorem Adds.finish {visit : Build Unit} {ts : List Outline} (h : Adds visit ts) :
    Build.finish visit = ts := by
  rw [Build.finish, h]
  rfl

end Build

open Build

/-! ### Callbacks -/

/-- The callback is one for nodes of the given kind, which have the given direct parts: it
expects this kind, and goes on through another one if at all. -/
inductive Callback.Fits (kind : Kind) (parts : List Part) : Callback → Prop
  | plain : Fits kind parts (.plain kind)
  | special {general : Kind} : general ≠ kind → Fits kind parts (.special kind general)
  | leaf : parts = [] → Fits kind parts (.leaf kind)

/-- A callback that fits shows the node once, above what the visits of its parts add. -/
theorem Callback.Fits.run_adds {labels : LabelMapping} {node : Shown} {parts : List Part}
    {callback : Callback} (h : callback.Fits node.kind parts) {visit : Part → Build Unit}
    {forest : Part → List Outline} (hv : ∀ q ∈ parts, Adds (visit q) (forest q)) :
    Adds (callback.run labels node (runAll (parts.map visit)))
      [.ofNode labels node.kind node.rows (parts.flatMap forest)] := by
  have hw := adds_runAll visit forest parts hv
  cases h with
  | plain => exact hw.addNode labels node
  | special hne =>
    -- the general callback expects another kind, so it only goes on
    rw [Callback.run, addNode_of_ne hne]
    exact hw.addNode labels node
  | leaf hnil =>
    -- a leaf does not go on, and has no parts that could be missed
    subst hnil
    exact adds_pure.addNode labels node

/-- The callback chosen for a part. -/
def Part.callback : Part → Callback
  | .expression e => e.callback
  | .statement s => s.callback
  | .catchClause _ => .plain .catchStatement
  | .caseClause _ => .plain .caseStatement

theorem ExpressionNode.callback_fits (n : ExpressionNode) (h : n ≠ .empty) :
    n.callback.Fits n.kind n.children := by
  cases n
  case step side operation operand => cases side <;> exact .plain
  case wrap wrapper operand =>
    cases wrapper
    case not => exact .special nofun
    all_goals exact .plain
  case sequence form items =>
    cases form
    case arguments | clauses | namedArguments => exact .special nofun
    all_goals exact .plain
  case access object name accessor =>
    rcases accessor with _ | _ | _ | _
    · exact .plain
    · exact .plain
    · exact .plain
    · exact .special nofun
  case declaration | elvis => exact .special nofun
  case constant | classRef | variableRef | field | bytecode => exact .leaf rfl
  case empty => exact absurd rfl h
  all_goals exact .plain

theorem Statement.callback_fits (s : Statement) (h : (Part.statement s).isPlaceholder = false) :
    s.callback.Fits s.kind s.node.children := by
  obtain ⟨node, span⟩ := s
  cases node
  case breakLoop | continueLoop => exact .leaf rfl
  case empty =>
    have hs : span.isEmpty = false := h
    rw [Statement.callback, if_neg (by rw [hs]; exact Bool.false_ne_true)]
    exact .leaf rfl
  all_goals exact .plain

/-- Placeholders are skipped, and the callback of every other part fits it. -/
theorem Part.callback_spec (p : Part) :
    if p.isPlaceholder then p.callback = .skip else p.callback.Fits p.kind p.children := by
  split
  · rename_i h
    rcases p with ⟨node, span, inferred⟩ | ⟨node, span⟩ | c | c
    · cases node
      case empty => rfl
      all_goals cases h
    · cases node
      case empty => exact if_pos h
      all_goals cases h
    · cases h
    · cases h
  · rename_i h
    rcases p with ⟨node, span, inferred⟩ | s | c | c
    · refine node.callback_fits fun he => h ?_
      subst he
      rfl
    · exact s.callback_fits (Bool.eq_false_iff.mpr h)
    · exact .plain
    · exact .plain

/-! ### The visitor goes through the parts -/

/-- Visits a part. -/
def Part.visit (labels : LabelMapping) : Part → Build Unit
  | .expression e => e.visit labels
  | .statement s => s.visit labels
  | .catchClause c => c.visit labels
  | .caseClause c => c.visit labels

section Walk

variable (labels : LabelMapping)

theorem expressionVisits_eq_map :
    ∀ es : List Expression, expressionVisits labels es = es.map (·.visit labels)
  | [] => by rw [expressionVisits]; rfl
  | e :: rest => by rw [expressionVisits, expressionVisits_eq_map rest]; rfl

theorem statementVisits_eq_map :
    ∀ ss : List Statement, statementVisits labels ss = ss.map (·.visit labels)
  | [] => by rw [statementVisits]; rfl
  | s :: rest => by rw [statementVisits, statementVisits_eq_map rest]; rfl

theorem catchVisits_eq_map :
    ∀ cs : List CatchClause, catchVisits labels cs = cs.map (·.visit labels)
  | [] => by rw [catchVisits]; rfl
  | c :: rest => by rw [catchVisits, catchVisits_eq_map rest]; rfl

theorem caseVisits_eq_map :
    ∀ cs : List CaseClause, caseVisits labels cs = cs.map (·.visit labels)
  | [] => by rw [caseVisits]; rfl
  | c :: rest => by rw [caseVisits, caseVisits_eq_map rest]; rfl

theorem map_interleave {α β : Type} (f : α → β) :
    ∀ xs ys : List α, (interleave xs ys).map f = interleave (xs.map f) (ys.map f)
  | [], _ => rfl
  | x :: xs, [] => by simp [interleave, map_interleave f xs []]
  | x :: xs, y :: ys => by simp [interleave, map_interleave f xs ys]

theorem runAll_append (xs ys : List (Build Unit)) :
    runAll (xs ++ ys) = (do runAll xs; runAll ys) := by
  induction xs with
  | nil => rfl
  | cons x xs ih => rw [List.cons_append, runAll, ih]; rfl

/-- Code goes through the direct parts of an expression in reading order. -/
theorem ExpressionNode.walk_eq (n : ExpressionNode) :
    n.walk labels = runAll (n.children.map (Part.visit labels)) := by
  cases n <;>
    simp only [ExpressionNode.walk, ExpressionNode.children, expressionVisits_eq_map,
      List.map_append, List.map_map, runAll_append, map_interleave] <;> rfl

/-- The same for statements. -/
theorem StatementNode.walk_eq (n : StatementNode) :
    n.walk labels = runAll (n.children.map (Part.visit labels)) := by
  cases n <;>
    simp only [StatementNode.walk, StatementNode.children, statementVisits_eq_map,
      catchVisits_eq_map, caseVisits_eq_map, List.map_append, List.map_cons, List.map_map,
      runAll, runAll_append, List.cons_append] <;> rfl

/-- A part is visited by calling back for it, with the visits of its direct parts below. -/
theorem Part.visit_eq (p : Part) :
    p.visit labels =
      p.callback.run labels ⟨p.kind, p.rows⟩ (runAll (p.children.map (Part.visit labels))) := by
  rcases p with ⟨node, span, inferred⟩ | ⟨node, span⟩ | ⟨binding, code, span⟩ |
    ⟨subject, code, span⟩
  · rw [Part.visit, Expression.visit, node.walk_eq]
    rfl
  · rw [Part.visit, Statement.visit, node.walk_eq]
    rfl
  · rw [Part.visit, CatchClause.visit]
    rfl
  · rw [Part.visit, CaseClause.visit]
    rfl

end Walk

/-! ### The outline is the forest -/

/-- The visit of a part adds its forest: once for its own node, and below that once for every
direct part. -/
theorem Part.visit_adds (labels : LabelMapping) (p : Part) :
    Adds (p.visit labels) (p.forest labels) := by
  have hspec := p.callback_spec
  rw [p.visit_eq, p.forest_eq]
  split at hspec
  · rename_i hp
    rw [hspec, if_pos hp]
    exact adds_pure
  · rename_i hp
    rw [if_neg hp]
    exact hspec.run_adds fun q _ => Part.visit_adds labels q
termination_by sizeOf p
decreasing_by exact Part.sizeOf_lt_of_mem_children ‹_›

theorem Expression.outline_eq (labels : LabelMapping) (e : Expression) :
    e.outline labels = (Part.expression e).forest labels :=
  (Part.visit_adds labels (.expression e)).finish

theorem Statement.outline_eq (labels : LabelMapping) (s : Statement) :
    s.outline labels = (Part.statement s).forest labels :=
  (Part.visit_adds labels (.statement s)).finish

/-- What a node of the outline shows: its label and its rows. -/
def Outline.shown (t : Outline) : String × List Row := (t.label, t.rows)

theorem Outline.preorderAll_append (depth : Nat) (ts us : List Outline) :
    preorderAll depth (ts ++ us) = preorderAll depth ts ++ preorderAll depth us := by
  induction ts with
  | nil => rw [preorderAll]; rfl
  | cons t ts ih =>
    rw [List.cons_append, preorderAll, preorderAll, ih, List.append_assoc]

/-- The nodes of a forest in pre-order are the shown parts in reading order. -/
theorem Part.preorder_forest (labels : LabelMapping) (depth : Nat) (p : Part) :
    (Outline.preorderAll depth (p.forest labels)).map (fun (_, t) => t.shown) =
      (p.walk.filter fun q => !q.isPlaceholder).map fun q =>
        (labels.label q.kind q.rows, sortRows q.rows) := by
  -- the same for the direct parts, one after the other
  have hparts : ∀ qs : List Part, (∀ q ∈ qs, q ∈ p.children) →
      (Outline.preorderAll (depth + 1) (qs.flatMap (·.forest labels))).map
          (fun (_, t) => t.shown) =
        ((qs.flatMap Part.walk).filter fun q => !q.isPlaceholder).map fun q =>
          (labels.label q.kind q.rows, sortRows q.rows) := by
    intro qs hqs
    induction qs with
    | nil => rw [List.flatMap_nil, Outline.preorderAll]; rfl
    | cons q qs ih =>
      have hq : q ∈ p.children := hqs q List.mem_cons_self
      rw [List.flatMap_cons, List.flatMap_cons, Outline.preorderAll_append, List.map_append,
        List.filter_append, List.map_append, Part.preorder_forest labels (depth + 1) q,
        ih fun r hr => hqs r (List.mem_cons_of_mem q hr)]
  rw [p.forest_eq, p.walk_eq]
  split
  · rename_i hp
    rw [Part.children_eq_nil_of_isPlaceholder hp, List.flatMap_nil, Outline.preorderAll,
      List.filter_cons_of_neg (by simp [hp])]
    rfl
  · rename_i hp
    rw [List.filter_cons_of_pos (by simp [hp]), Outline.preorderAll, Outline.preorderAll,
      List.append_nil, Outline.ofNode, Outline.preorder, List.map_cons, List.map_cons,
      hparts p.children fun _ h => h]
    rfl
termination_by sizeOf p
decreasing_by exact Part.sizeOf_lt_of_mem_children ‹_›

/-- **The outline of code is its forest.**  The trees that the visitor builds for an
expression or a statement are those of the plain recursion; and listed in pre-order their
nodes are the parts of the code that are no placeholders, each one once, under its own kind
and in reading order. -/
theorem outline_eq_forest (labels : LabelMapping) :
    (∀ e : Expression, e.outline labels = (Part.expression e).forest labels) ∧
    (∀ s : Statement, s.outline labels = (Part.statement s).forest labels) ∧
    ∀ p : Part, (Outline.preorderAll 0 (p.forest labels)).map (fun (_, t) => t.shown) =
      (p.walk.filter fun q => !q.isPlaceholder).map fun q =>
        (labels.label q.kind q.rows, sortRows q.rows) := by
  refine ⟨fun e => e.outline_eq labels, fun s => s.outline_eq labels, fun p => ?_⟩
  exact p.preorder_forest labels 0

end ScriptOutline
