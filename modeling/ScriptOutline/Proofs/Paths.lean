/-
ScriptOutline/Proofs/Paths.lean

The two ways to reach the nodes of an outline, by a path of child positions and by the listing
in pre-order, tell the same tree.

The listing keeps the nodes that are still to come on a stack.  What a stack lists is the
pre-order of its nodes one after the other, whatever the trees look like
(`Outline.unfoldStack_eq`), so the listing is the recursion over the tree.  The paths of a tree
are collected by the same recursion: a node's own path is empty, and the paths through a child
begin with its position.  They are exactly the paths at which there is a node
(`Outline.mem_paths`), and they rise in the lexicographic order, in which a path stands before
its extensions (`Outline.paths_rise`).

Main result: the nodes are listed along the paths, each one as deep as its path is long
(`Outline.nodes_along_paths`).
-/
import ScriptOutline.Outline.Basic
import Mathlib.Data.List.Lex

namespace ScriptOutline

namespace Outline

/-! ### The stack -/

theorem preorder_eq (depth : Nat) (t : Outline) :
    t.preorder depth = (depth, t) :: preorderAll (depth + 1) t.children := by
  cases t; rw [preorder]

/-- Trees side by side are listed one after the other. -/
theorem preorderAll_eq_flatMap (depth : Nat) (ts : List Outline) :
    preorderAll depth ts = (atDepth depth ts).flatMap fun (d, t) => t.preorder d := by
  induction ts with
  | nil => rw [preorderAll]; rfl
  | cons t ts ih => rw [preorderAll, ih]; rfl

/-- A stack lists its trees from the top down, each of them in pre-order from its own depth
on. -/
theorem unfoldStack_eq (stack : List (Nat × Outline)) :
    unfoldStack stack = stack.flatMap fun (depth, t) => t.preorder depth := by
  fun_induction unfoldStack stack with
  | case1 => rfl
  | case2 depth t rest ih =>
    -- the children stand in front of the rest, which is the order of the recursion
    have hfront : t.preorder depth = (depth, t) :: (atDepth (depth + 1) t.children).flatMap
        fun (d, c) => c.preorder d := by
      rw [preorder_eq, preorderAll_eq_flatMap]
    rw [ih, List.flatMap_append, List.flatMap_cons]
    show _ = t.preorder depth ++ _
    rw [hfront, List.cons_append]

theorem nodes_eq_preorder (t : Outline) : t.nodes = t.preorder 0 := by
  rw [nodes, unfoldStack_eq, List.flatMap_singleton]

/-! ### Paths -/

mutual

/-- The paths to a node itself and to the nodes below it, in reading order. -/
def paths : Outline → List (List Nat)
  | ⟨_, _, children⟩ => [] :: pathsFrom 0 children

/-- The paths through children of which the first one stands at position `i`. -/
def pathsFrom (i : Nat) : List Outline → List (List Nat)
  | [] => []
  | t :: rest => t.paths.map (i :: ·) ++ pathsFrom (i + 1) rest

end

theorem pathsFrom_eq_flatMap (ts : List Outline) :
    ∀ i : Nat, pathsFrom i ts = (ts.zipIdx i).flatMap fun (t, j) => t.paths.map (j :: ·) := by
  induction ts with
  | nil => intro i; rw [pathsFrom]; rfl
  | cons t ts ih => intro i; rw [pathsFrom, ih]; rfl

theorem paths_eq (t : Outline) :
    t.paths = [] :: t.children.zipIdx.flatMap fun (c, j) => c.paths.map (j :: ·) := by
  cases t
  rw [paths, pathsFrom_eq_flatMap]

theorem get?_cons {t c : Outline} {i : Nat} (h : t.children[i]? = some c) (path : List Nat) :
    t.get? (i :: path) = c.get? path := by
  rw [get?, h]

theorem get?_cons_of_none {t : Outline} {i : Nat} (h : t.children[i]? = none)
    (path : List Nat) : t.get? (i :: path) = none := by
  rw [get?, h]

/-- A path through a child is a path of this child. -/
theorem cons_mem_paths {t : Outline} {i : Nat} {path : List Nat} :
    i :: path ∈ t.paths ↔ ∃ c, t.children[i]? = some c ∧ path ∈ c.paths := by
  rw [paths_eq, List.mem_cons, List.mem_flatMap]
  constructor
  · rintro (h | ⟨⟨c, j⟩, hc, hpath⟩)
    · cases h
    · obtain ⟨rest, hrest, heq⟩ := List.mem_map.mp hpath
      obtain ⟨rfl, rfl⟩ := List.cons.inj heq
      exact ⟨c, List.mk_mem_zipIdx_iff_getElem?.mp hc, hrest⟩
  · rintro ⟨c, hc, hpath⟩
    exact .inr ⟨(c, i), List.mk_mem_zipIdx_iff_getElem?.mpr hc, List.mem_map_of_mem hpath⟩

/-- A path is one of the tree if and only if it leads to a node. -/
theorem mem_paths (t : Outline) (path : List Nat) :
    path ∈ t.paths ↔ (t.get? path).isSome = true := by
  induction path generalizing t with
  | nil =>
    rw [paths_eq]
    exact iff_of_true List.mem_cons_self rfl
  | cons i path ih =>
    rw [cons_mem_paths]
    cases hc : t.children[i]? with
    | none => simp [get?_cons_of_none hc]
    | some c => simp [get?_cons hc, ih]

/-! ### Going through a tree -/

/-- What holds for a tree as soon as it holds for its children holds for every tree. -/
theorem of_children {P : Outline → Prop} (step : ∀ t, (∀ c ∈ t.children, P c) → P t) :
    ∀ t, P t
  | ⟨label, rows, children⟩ => step _ fun c hc =>
    have : sizeOf c < sizeOf children := List.sizeOf_lt_of_mem hc
    of_children step c
termination_by t => sizeOf t
decreasing_by simp only [mk.sizeOf_spec]; omega

/-- The paths rise: a path stands before its extensions, and the paths through a child stand
before those through the children further to the right. -/
theorem paths_rise (t : Outline) : t.paths.Pairwise (· < ·) := by
  induction t using of_children with
  | step t ih =>
    rw [paths_eq, List.pairwise_cons]
    refine ⟨fun path hpath => ?_, List.pairwise_flatMap.mpr ⟨?_, ?_⟩⟩
    · obtain ⟨⟨c, j⟩, -, h⟩ := List.mem_flatMap.mp hpath
      obtain ⟨rest, -, rfl⟩ := List.mem_map.mp h
      exact List.nil_lt_cons j rest
    · rintro ⟨c, j⟩ hc
      have hrise := ih c (List.fst_mem_of_mem_zipIdx hc)
      exact List.pairwise_map.mpr (hrise.imp fun h => List.Lex.cons h)
    · have hpositions : t.children.zipIdx.Pairwise fun x y => x.2 < y.2 := by
        rw [← List.pairwise_map, List.zipIdx_map_snd]
        exact List.pairwise_lt_range'
      refine hpositions.imp ?_
      rintro ⟨c, i⟩ ⟨d, j⟩ hij path hpath other hother
      obtain ⟨rest, -, rfl⟩ := List.mem_map.mp hpath
      obtain ⟨otherRest, -, rfl⟩ := List.mem_map.mp hother
      exact List.Lex.rel hij

/-- From any depth on, pre-order goes along the paths. -/
theorem preorder_along_paths (t : Outline) : ∀ depth : Nat,
    (t.preorder depth).map (fun (d, node) => (d, some node)) =
      t.paths.map fun path => (depth + path.length, t.get? path) := by
  induction t using of_children with
  | step t ih =>
    intro depth
    rw [preorder_eq, preorderAll_eq_flatMap, paths_eq, List.map_cons, List.map_cons]
    -- a child is listed along its own paths, which the tree has behind the child's position
    have hchild : ∀ x ∈ t.children.zipIdx,
        (x.1.preorder (depth + 1)).map (fun (d, node) => (d, some node)) =
          (x.1.paths.map (x.2 :: ·)).map fun path => (depth + path.length, t.get? path) := by
      rintro ⟨c, i⟩ hc
      rw [ih c (List.fst_mem_of_mem_zipIdx hc), List.map_map]
      refine List.map_congr_left fun path _ => ?_
      rw [Function.comp_apply, get?_cons (List.mk_mem_zipIdx_iff_getElem?.mp hc),
        List.length_cons, Nat.add_assoc, Nat.add_comm 1]
    refine congrArg₂ _ rfl ?_
    rw [List.map_flatMap, List.map_flatMap, atDepth, List.flatMap_map,
      ← List.zipIdx_map_fst 0 t.children, List.flatMap_map, List.zipIdx_map_fst]
    exact List.flatMap_congr hchild

/-- **The listing goes along the paths.**  Every tree lists its nodes as the recursion from the
root over the children from left to right does.  The paths at which it has a node, in the
lexicographic order, in which a path stands before its extensions, are gone through one by one:
the item listed for a path is the node at this path, as deep as the path is long.  At every
other path there is no node. -/
theorem nodes_along_paths (t : Outline) :
    t.nodes = t.preorder 0 ∧ t.paths.Pairwise (· < ·) ∧
      (∀ path, path ∈ t.paths ↔ (t.get? path).isSome = true) ∧
      t.nodes.map (fun (depth, node) => (depth, some node)) =
        t.paths.map fun path => (path.length, t.get? path) := by
  refine ⟨t.nodes_eq_preorder, t.paths_rise, t.mem_paths, ?_⟩
  rw [t.nodes_eq_preorder, t.preorder_along_paths 0]
  simp only [Nat.zero_add]

end Outline

end ScriptOutline
