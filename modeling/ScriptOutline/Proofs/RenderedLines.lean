/-
ScriptOutline/Proofs/RenderedLines.lean

What the text of an outline tells about it.  The text has one line for each node, in pre-order and
indented by the depth, and below it one line for each row of the node.

Two things could be mistaken for one another in such a text: a line of a row for that of a child,
which is indented as far, and the indentation for a part of the label.  Neither happens as long as
no label begins with a space or a bar and nothing that is written breaks a line
(`Outline.Legible`).  Then the text falls apart at its line breaks into the lines that were written
(`splitOn_ended`); a line is one of a row if and only if its first character other than a space is
a bar; and the spaces before a label are its depth.  So the text gives back the nodes in pre-order,
each with its depth, its label and the texts of its rows (`Outline.faces_eq_of_lines`).  Depths in
pre-order fix the tree: what belongs to a node ends at the first node that is not deeper
(`Outline.alike_of_faces`).

Main result: two such outlines have the same text if and only if they have the same shape with the
same labels and the same lines of rows everywhere, and without the lines of rows the text is that
of the outline without rows (`Outline.render_tells`).
-/
import ScriptOutline.Proofs.Paths
import Mathlib.Data.List.Forall2

namespace ScriptOutline

/-! ### Lines -/

/-- Lines with a line break behind each of them. -/
def ended (lines : List (List Char)) : List Char := lines.flatMap (· ++ ['\n'])

theorem ended_eq_intercalate (lines : List (List Char)) :
    ended lines = ['\n'].intercalate (lines ++ [[]]) := by
  induction lines with
  | nil => rfl
  | cons line lines ih =>
    rw [ended, List.flatMap_cons, ← ended, ih, List.cons_append,
      List.intercalate_cons_of_ne_nil (by simp)]

/-- Lines without line breaks in them are found again between the line breaks. -/
theorem splitOn_ended {lines : List (List Char)} (h : ∀ line ∈ lines, '\n' ∉ line) :
    (ended lines).splitOn '\n' = lines ++ [[]] := by
  rw [ended_eq_intercalate, List.splitOn_intercalate]
  · rw [List.forall_mem_append]
    exact ⟨h, by simp⟩
  · simp

theorem ended_injective {lines lines' : List (List Char)} (h : ∀ line ∈ lines, '\n' ∉ line)
    (h' : ∀ line ∈ lines', '\n' ∉ line) (heq : ended lines = ended lines') : lines = lines' := by
  -- nothing stands behind the last line break, whichever the lines are
  have hpieces : lines ++ [[]] = lines' ++ [[]] := by
    rw [← splitOn_ended h, ← splitOn_ended h', heq]
  exact List.append_cancel_right hpieces

/-- The first character of the line other than a space is a bar. -/
def isRowLine (line : List Char) : Bool := (line.dropWhile (· == ' ')).head? == some '|'

/-- The text without the lines whose first character other than a space is a bar. -/
def withoutRowLines (text : String) : String :=
  String.ofList (['\n'].intercalate ((text.toList.splitOn '\n').filter fun line => !isRowLine line))

theorem withoutRowLines_ended {lines : List (List Char)} (h : ∀ line ∈ lines, '\n' ∉ line) :
    withoutRowLines (String.ofList (ended lines)) =
      String.ofList (ended (lines.filter fun line => !isRowLine line)) := by
  rw [withoutRowLines, String.toList_ofList, splitOn_ended h, List.filter_append,
    ended_eq_intercalate]
  rfl

/-- Nothing in the row breaks a line. -/
structure Row.OneLine (r : Row) : Prop where
  name : '\n' ∉ r.name.toList
  type : '\n' ∉ r.type.toList
  value : ∀ value ∈ r.value, '\n' ∉ value.toList

namespace Outline

/-! ### The lines of a node -/

/-- The spaces before a node at a depth. -/
def indent (depth : Nat) : List Char := List.replicate (2 * depth) ' '

theorem indent_succ (depth : Nat) : indent (depth + 1) = indent depth ++ [' ', ' '] :=
  List.replicate_add (2 * depth) 2 ' '

theorem toList_repeated (depth : Nat) : (repeated "  " depth).toList = indent depth := by
  induction depth with
  | zero => rfl
  | succ depth ih =>
    rw [repeated, String.toList_append, ih]
    rfl

/-- Indentation does not change what comes behind the spaces. -/
theorem dropWhile_indent (depth : Nat) (cs : List Char) :
    (indent depth ++ cs).dropWhile (· == ' ') = cs.dropWhile (· == ' ') := by
  apply List.dropWhile_append_of_pos
  intro c hc
  rw [List.eq_of_mem_replicate hc]
  rfl

theorem not_mem_indent (depth : Nat) : '\n' ∉ indent depth := by
  intro h
  cases List.eq_of_mem_replicate h

/-- The line of the label of a node. -/
def labelLine (depth : Nat) (label : String) : List Char := indent depth ++ label.toList

/-- The line of a row below a node. -/
def rowLine (depth : Nat) (text : String) : List Char :=
  indent (depth + 1) ++ '|' :: ' ' :: text.toList

/-- The lines of a node: its label, and its rows if they are wanted. -/
def nodeLines (withRows : Bool) (depth : Nat) (t : Outline) : List (List Char) :=
  labelLine depth t.label ::
    if withRows then (t.rows.map rowText).map (rowLine depth) else []

theorem toList_nodeText (withRows : Bool) (depth : Nat) (t : Outline) :
    (nodeText withRows depth t).toList = ended (nodeLines withRows depth t) := by
  have hrow : ∀ r : Row, (repeated "  " depth ++ "  | " ++ rowText r ++ "\n").toList =
      rowLine depth (rowText r) ++ ['\n'] := by
    intro r
    simp [toList_repeated, rowLine, indent_succ]
  cases withRows with
  | false => simp [nodeText, nodeLines, ended, labelLine, toList_repeated]
  | true =>
    simp [nodeText, nodeLines, ended, labelLine, toList_repeated, toList_joinWith_empty,
      List.flatMap_map, hrow]

/-- The text is made of the lines of the nodes in pre-order. -/
theorem render_eq (withRows : Bool) (t : Outline) :
    t.render withRows =
      String.ofList (ended (t.nodes.flatMap fun (depth, n) => nodeLines withRows depth n)) := by
  rw [← String.toList_inj, render, toList_joinWith_empty, String.toList_ofList, ended,
    List.flatMap_assoc, List.flatMap_map]
  apply List.flatMap_congr
  rintro ⟨depth, n⟩ _
  exact toList_nodeText withRows depth n

/-! ### Reading lines -/

/-- Nothing at the node breaks a line, and the label begins neither with a space nor with a
bar. -/
structure LegibleNode (t : Outline) : Prop where
  label : '\n' ∉ t.label.toList
  start : ∀ c ∈ t.label.toList.head?, c ≠ ' ' ∧ c ≠ '|'
  rows : ∀ r ∈ t.rows, r.OneLine

variable {t u : Outline} {depth depth' : Nat}

theorem not_mem_nodeLines (h : t.LegibleNode) :
    ∀ line ∈ nodeLines true depth t, '\n' ∉ line := by
  rw [nodeLines, List.forall_mem_cons, if_pos rfl, List.forall_mem_map, List.forall_mem_map]
  constructor
  · rw [labelLine, List.mem_append, not_or]
    exact ⟨not_mem_indent depth, h.label⟩
  · intro r hr
    obtain ⟨hname, htype, hvalue⟩ := h.rows r hr
    have hshown : '\n' ∉ (r.value.getD "null").toList := by
      cases hr : r.value with
      | none => decide
      | some value => exact hvalue value hr
    simp [rowLine, rowText, not_mem_indent, hname, htype, hshown]

theorem isRowLine_rowLine (depth : Nat) (text : String) :
    isRowLine (rowLine depth text) = true := by
  rw [isRowLine, rowLine, dropWhile_indent]
  rfl

/-- What comes behind the spaces of the line of a label is the label. -/
theorem dropWhile_labelLine (h : t.LegibleNode) :
    (labelLine depth t.label).dropWhile (· == ' ') = t.label.toList := by
  rw [labelLine, dropWhile_indent]
  cases hlabel : t.label.toList with
  | nil => rfl
  | cons c cs =>
    have hc : c ≠ ' ' := (h.start c (by rw [hlabel]; rfl)).1
    exact List.dropWhile_cons_of_neg (by simpa using hc)

theorem isRowLine_labelLine (h : t.LegibleNode) (depth : Nat) :
    isRowLine (labelLine depth t.label) = false := by
  rw [isRowLine, dropWhile_labelLine h, ← Bool.not_eq_true, beq_iff_eq]
  intro hbar
  exact (h.start '|' hbar).2 rfl

theorem labelLine_injective (ht : t.LegibleNode) (hu : u.LegibleNode)
    (h : labelLine depth t.label = labelLine depth' u.label) :
    depth = depth' ∧ t.label = u.label := by
  have hlabel : t.label = u.label := by
    rw [← String.toList_inj, ← dropWhile_labelLine ht, ← dropWhile_labelLine hu, h]
  refine ⟨?_, hlabel⟩
  -- with the label taken away only the spaces are left, two for each step down
  rw [labelLine, labelLine, hlabel, List.append_left_inj] at h
  have hlength := congrArg List.length h
  simp only [indent, List.length_replicate] at hlength
  omega

theorem rowLine_injective (depth : Nat) : Function.Injective (rowLine depth) := by
  intro text text' h
  rw [rowLine, rowLine, List.append_right_inj, List.cons.injEq, List.cons.injEq] at h
  exact String.toList_inj.mp h.2.2

/-- Without the lines of rows those of the labels are left. -/
theorem filter_nodeLines (h : t.LegibleNode) :
    (nodeLines true depth t).filter (fun line => !isRowLine line) = nodeLines false depth t := by
  rw [nodeLines, if_pos rfl, List.filter_cons_of_pos (by rw [isRowLine_labelLine h]; rfl)]
  have hrows : ((t.rows.map rowText).map (rowLine depth)).filter
      (fun line => !isRowLine line) = [] := by
    rw [List.filter_eq_nil_iff, List.forall_mem_map]
    intro text _
    rw [isRowLine_rowLine]
    decide
  rw [hrows]
  rfl

/-! ### From lines to nodes -/

/-- What lines show of a node: the label and the texts of the rows. -/
def face (t : Outline) : String × List String := (t.label, t.rows.map rowText)

/-- The depths and faces of nodes. -/
def faces (nodes : List (Nat × Outline)) : List (Nat × String × List String) :=
  nodes.map fun (depth, n) => (depth, n.face)

/-- The lines of nodes with all their rows. -/
def allLines (nodes : List (Nat × Outline)) : List (List Char) :=
  nodes.flatMap fun (depth, n) => nodeLines true depth n

theorem allLines_eq (nodes : List (Nat × Outline)) :
    allLines nodes = (faces nodes).flatMap fun (depth, label, texts) =>
      labelLine depth label :: texts.map (rowLine depth) := by
  rw [faces, List.flatMap_map]
  rfl

/-- The lines of nodes do not begin with one of a row. -/
theorem takeWhile_allLines {nodes : List (Nat × Outline)}
    (h : ∀ x ∈ nodes, x.2.LegibleNode) : (allLines nodes).takeWhile isRowLine = [] := by
  cases nodes with
  | nil => rfl
  | cons x nodes =>
    have hlabel := isRowLine_labelLine (h x List.mem_cons_self) x.1
    rw [allLines, List.flatMap_cons]
    exact List.takeWhile_cons_of_neg (by rw [hlabel]; decide)

/-- The lines of rows end where the next node begins. -/
theorem rows_eq_of_append {texts texts' : List String} {rest rest' : List (List Char)}
    (hrest : rest.takeWhile isRowLine = []) (hrest' : rest'.takeWhile isRowLine = [])
    (h : texts.map (rowLine depth) ++ rest = texts'.map (rowLine depth) ++ rest') :
    texts = texts' ∧ rest = rest' := by
  have hall : ∀ texts : List String, ∀ line ∈ texts.map (rowLine depth),
      isRowLine line = true := by
    intro texts
    rw [List.forall_mem_map]
    exact fun text _ => isRowLine_rowLine depth text
  have htexts : texts.map (rowLine depth) = texts'.map (rowLine depth) := by
    have htaken := congrArg (List.takeWhile isRowLine) h
    rwa [List.takeWhile_append_of_pos (hall texts), List.takeWhile_append_of_pos (hall texts'),
      hrest, hrest', List.append_nil, List.append_nil] at htaken
  refine ⟨(rowLine_injective depth).list_map htexts, ?_⟩
  rwa [htexts, List.append_right_inj] at h

/-- The lines of nodes tell how deep each node is, its label and the texts of its rows. -/
theorem faces_eq_of_lines {xs ys : List (Nat × Outline)} (hxs : ∀ x ∈ xs, x.2.LegibleNode)
    (hys : ∀ y ∈ ys, y.2.LegibleNode) (h : allLines xs = allLines ys) : faces xs = faces ys := by
  induction xs generalizing ys with
  | nil =>
    cases ys with
    | nil => rfl
    | cons y ys => cases h
  | cons x xs ih =>
    cases ys with
    | nil => cases h
    | cons y ys =>
      obtain ⟨depth, t⟩ := x
      obtain ⟨depth', u⟩ := y
      obtain ⟨hx, hxs'⟩ := List.forall_mem_cons.mp hxs
      obtain ⟨hy, hys'⟩ := List.forall_mem_cons.mp hys
      obtain ⟨hhead, htail⟩ := List.cons.inj h
      obtain ⟨rfl, hlabel⟩ := labelLine_injective hx hy hhead
      obtain ⟨hrows, hrest⟩ := rows_eq_of_append (takeWhile_allLines hxs')
        (takeWhile_allLines hys') htail
      have hface : (depth, t.face) = (depth, u.face) := Prod.ext rfl (Prod.ext hlabel hrows)
      exact congrArg₂ List.cons hface (ih hxs' hys' hrest)

/-! ### From nodes to trees -/

/-- The trees have nodes at the same places, with the same labels and the same texts of rows. -/
def Alike (t u : Outline) : Prop := ∀ path, (t.get? path).map face = (u.get? path).map face

theorem Alike.symm (h : t.Alike u) : u.Alike t := fun path => (h path).symm

theorem Alike.length_children_le (h : t.Alike u) : u.children.length ≤ t.children.length := by
  by_contra hlt
  have hi : t.children.length < u.children.length := Nat.lt_of_not_le hlt
  have hpath := h [t.children.length]
  rw [get?_cons_of_none (List.getElem?_eq_none (Nat.le_refl _)),
    get?_cons (List.getElem?_eq_getElem hi)] at hpath
  cases hpath

/-- Trees are alike if their roots show the same and their children are alike. -/
theorem alike_iff : t.Alike u ↔ t.face = u.face ∧ List.Forall₂ Alike t.children u.children := by
  constructor
  · intro h
    refine ⟨Option.some.inj (h []), List.forall₂_iff_get.mpr ⟨?_, fun i hi hi' path => ?_⟩⟩
    · exact Nat.le_antisymm h.symm.length_children_le h.length_children_le
    · have hpath := h (i :: path)
      rwa [get?_cons (List.getElem?_eq_getElem hi),
        get?_cons (List.getElem?_eq_getElem hi')] at hpath
  · rintro ⟨hface, hchildren⟩ path
    obtain ⟨hlength, hget⟩ := List.forall₂_iff_get.mp hchildren
    cases path with
    | nil => exact congrArg some hface
    | cons i path =>
      by_cases hi : i < t.children.length
      · have hi' : i < u.children.length := hlength ▸ hi
        rw [get?_cons (List.getElem?_eq_getElem hi), get?_cons (List.getElem?_eq_getElem hi')]
        exact hget i hi hi' path
      · have hi' : ¬ i < u.children.length := hlength ▸ hi
        rw [get?_cons_of_none (List.getElem?_eq_none (Nat.le_of_not_lt hi)),
          get?_cons_of_none (List.getElem?_eq_none (Nat.le_of_not_lt hi'))]

variable {rest rest' : List (Nat × String × List String)}

/-- What comes next is not as deep as the given depth. -/
def Above (depth : Nat) (rest : List (Nat × String × List String)) : Prop :=
  ∀ x ∈ rest.head?, x.1 < depth

theorem faces_preorder (depth : Nat) (t : Outline) :
    faces (t.preorder depth) = (depth, t.face) :: faces (preorderAll (depth + 1) t.children) := by
  rw [preorder_eq]
  rfl

theorem faces_preorderAll_nil (depth : Nat) : faces (preorderAll depth []) = [] := by
  rw [preorderAll]
  rfl

theorem faces_preorderAll_cons (depth : Nat) (t : Outline) (ts : List Outline) :
    faces (preorderAll depth (t :: ts)) =
      faces (t.preorder depth) ++ faces (preorderAll depth ts) := by
  rw [preorderAll, faces, List.map_append]
  rfl

/-- A node at the depth cannot stand where only higher ones stand. -/
theorem not_above_preorderAll_cons (depth : Nat) (t : Outline) (ts : List Outline) :
    ¬ Above depth (faces (preorderAll depth (t :: ts)) ++ rest) := by
  rw [faces_preorderAll_cons, faces_preorder]
  intro h
  exact Nat.lt_irrefl depth (h (depth, t.face) rfl)

theorem Above.preorderAll (h : Above depth rest) (ts : List Outline) :
    Above (depth + 1) (faces (preorderAll depth ts) ++ rest) := by
  cases ts with
  | nil =>
    rw [faces_preorderAll_nil]
    exact fun x hx => Nat.lt_succ_of_lt (h x hx)
  | cons t ts =>
    rw [faces_preorderAll_cons, faces_preorder]
    rintro _ ⟨⟩
    exact Nat.lt_succ_self depth

/-- Of trees and whatever is not as deep behind them, pre-order tells the trees, if it does so of
each of them. -/
theorem forall₂_alike_of_faces {ts us : List Outline}
    (h : ∀ t ∈ ts, ∀ u depth rest rest', Above (depth + 1) rest → Above (depth + 1) rest' →
      faces (t.preorder depth) ++ rest = faces (u.preorder depth) ++ rest' →
      t.Alike u ∧ rest = rest')
    (hrest : Above depth rest) (hrest' : Above depth rest')
    (heq : faces (preorderAll depth ts) ++ rest = faces (preorderAll depth us) ++ rest') :
    List.Forall₂ Alike ts us ∧ rest = rest' := by
  induction ts generalizing us with
  | nil =>
    rw [faces_preorderAll_nil] at heq
    obtain rfl : rest = _ := heq
    cases us with
    | nil => exact ⟨.nil, by rw [faces_preorderAll_nil]; rfl⟩
    | cons u us =>
      -- the node of `u` would be the first behind trees that are all read
      exact absurd hrest (not_above_preorderAll_cons depth u us)
  | cons t ts ih =>
    cases us with
    | nil =>
      rw [faces_preorderAll_nil] at heq
      obtain rfl : _ = rest' := heq
      exact absurd hrest' (not_above_preorderAll_cons depth t ts)
    | cons u us =>
      obtain ⟨ht, hts⟩ := List.forall_mem_cons.mp h
      rw [faces_preorderAll_cons, faces_preorderAll_cons, List.append_assoc,
        List.append_assoc] at heq
      -- behind the first tree come the others and `rest`, and none of these starts below it
      obtain ⟨halike, hbehind⟩ := ht u depth _ _ (hrest.preorderAll ts) (hrest'.preorderAll us) heq
      obtain ⟨hall, hend⟩ := ih hts hbehind
      exact ⟨.cons halike hall, hend⟩

theorem alike_of_faces_append (t : Outline) : ∀ u depth rest rest', Above (depth + 1) rest →
    Above (depth + 1) rest' → faces (t.preorder depth) ++ rest = faces (u.preorder depth) ++ rest' →
    t.Alike u ∧ rest = rest' := by
  induction t using of_children with
  | step t ih =>
    intro u depth rest rest' hrest hrest' heq
    rw [faces_preorder, faces_preorder, List.cons_append, List.cons_append] at heq
    obtain ⟨hnode, hbelow⟩ := List.cons.inj heq
    obtain ⟨hchildren, hend⟩ := forall₂_alike_of_faces ih hrest hrest' hbelow
    exact ⟨alike_iff.mpr ⟨(Prod.mk.inj hnode).2, hchildren⟩, hend⟩

/-- Depths and faces in pre-order tell the tree. -/
theorem alike_of_faces (h : faces t.nodes = faces u.nodes) : t.Alike u := by
  rw [nodes_eq_preorder, nodes_eq_preorder, ← List.append_nil (faces (t.preorder 0)),
    ← List.append_nil (faces (u.preorder 0))] at h
  exact (alike_of_faces_append t u 0 [] [] (by rintro _ ⟨⟩) (by rintro _ ⟨⟩) h).1

/-- Trees that are alike list their nodes at the same depths, and these show the same. -/
theorem Alike.faces_eq (t : Outline) :
    ∀ u depth, t.Alike u → faces (t.preorder depth) = faces (u.preorder depth) := by
  induction t using of_children with
  | step t ih =>
    intro u depth h
    obtain ⟨hface, hchildren⟩ := alike_iff.mp h
    rw [faces_preorder, faces_preorder, hface]
    refine congrArg _ ?_
    -- one child after the other
    have hall := (List.forall₂_and_left _ _).mpr ⟨ih, hchildren⟩
    generalize t.children = ts, u.children = us at hall
    induction hall with
    | nil => rfl
    | cons hchild _ ihall =>
      rw [faces_preorderAll_cons, faces_preorderAll_cons, hchild.1 _ _ hchild.2, ihall]

/-! ### Texts -/

/-- The outline can be read from its text: all its nodes can. -/
def Legible (t : Outline) : Prop := ∀ path n, t.get? path = some n → n.LegibleNode

theorem Legible.of_children (hnode : t.LegibleNode) (hchildren : ∀ c ∈ t.children, c.Legible) :
    t.Legible := by
  intro path n hn
  cases path with
  | nil =>
    obtain rfl : t = n := Option.some.inj hn
    exact hnode
  | cons i path =>
    cases hc : t.children[i]? with
    | none =>
      rw [get?_cons_of_none hc] at hn
      cases hn
    | some c =>
      rw [get?_cons hc] at hn
      exact hchildren c (List.mem_of_getElem? hc) path n hn

theorem Legible.nodes (h : t.Legible) : ∀ x ∈ t.nodes, x.2.LegibleNode := by
  intro x hx
  -- a node that is listed stands at the end of a path
  have hlisted : (x.1, some x.2) ∈ t.nodes.map fun (d, n) => (d, some n) :=
    List.mem_map_of_mem hx
  rw [nodes_eq_preorder, preorder_along_paths] at hlisted
  obtain ⟨path, -, heq⟩ := List.mem_map.mp hlisted
  exact h path x.2 (Prod.mk.inj heq).2

theorem render_true (t : Outline) : t.render true = String.ofList (ended (allLines t.nodes)) :=
  render_eq true t

theorem Legible.not_mem_allLines (h : t.Legible) : ∀ line ∈ allLines t.nodes, '\n' ∉ line := by
  intro line hline
  obtain ⟨x, hx, hline⟩ := List.mem_flatMap.mp hline
  exact not_mem_nodeLines (h.nodes x hx) line hline

/-- **What the text of an outline tells.**  Two outlines that can be read from their texts have
the same text if and only if they are alike: they have nodes at the same places, with the same
labels and the same lines of rows.  And the text of such an outline, without the lines whose first
character other than a space is a bar, is its text without rows. -/
theorem render_tells (ht : t.Legible) :
    (u.Legible → (t.render true = u.render true ↔ t.Alike u)) ∧
      withoutRowLines (t.render true) = t.render false := by
  refine ⟨fun hu => ⟨fun h => ?_, fun h => ?_⟩, ?_⟩
  · -- from the text to its lines, to the nodes that were written, to the tree
    rw [render_true, render_true, String.ofList_inj] at h
    have hlines := ended_injective ht.not_mem_allLines hu.not_mem_allLines h
    exact alike_of_faces (faces_eq_of_lines ht.nodes hu.nodes hlines)
  · rw [render_true, render_true, allLines_eq, allLines_eq, nodes_eq_preorder, nodes_eq_preorder,
      Alike.faces_eq t u 0 h]
  · rw [render_true, render_eq, withoutRowLines_ended ht.not_mem_allLines, allLines,
      List.filter_flatMap]
    congr 2
    apply List.flatMap_congr
    intro x hx
    exact filter_nodeLines (ht.nodes x hx)

/-- A node with a row, above an unlabelled node and one with a bar in its label. -/
def withOrigin (value : Option String) : Outline :=
  ⟨"a", [⟨"origin", "Variable", value⟩], [⟨"", [], []⟩, ⟨"b | c", [], []⟩]⟩

/-- A missing value is written like the value `null`. -/
theorem render_tells_missingValue :
    (withOrigin none).Legible ∧ (withOrigin (some "null")).Legible ∧
      (withOrigin none).render true = (withOrigin (some "null")).render true ∧
      (withOrigin none).Alike (withOrigin (some "null")) ∧
      withoutRowLines ((withOrigin none).render true) = "a\n  \n  b | c\n" := by
  have hleaf : ∀ label ∈ ["", "b | c"], Legible ⟨label, [], []⟩ := by
    intro label hlabel
    refine .of_children ⟨?_, ?_, by simp⟩ (by simp) <;>
      rcases List.mem_pair.mp hlabel with rfl | rfl <;> simp
  have hlegible : ∀ value ∈ [none, some "null"], (withOrigin value).Legible := by
    intro value hvalue
    refine .of_children ⟨by simp [withOrigin], by simp [withOrigin], ?_⟩ ?_
    · rw [withOrigin, List.forall_mem_singleton]
      refine ⟨by simp, by simp, ?_⟩
      rcases List.mem_pair.mp hvalue with rfl | rfl <;> simp
    · rw [withOrigin, List.forall_mem_cons, List.forall_mem_singleton]
      exact ⟨hleaf "" (by simp), hleaf "b | c" (by simp)⟩
  have hnone := hlegible none (by simp)
  have hnull := hlegible (some "null") (by simp)
  obtain ⟨htells, hwithout⟩ := render_tells hnone
  have htext : (withOrigin none).render true = (withOrigin (some "null")).render true := by
    rw [render, render, nodes_eq_preorder, nodes_eq_preorder]
    rfl
  refine ⟨hnone, hnull, htext, (htells hnull).mp htext, hwithout.trans ?_⟩
  rw [render, nodes_eq_preorder]
  rfl

end Outline

end ScriptOutline
