/-
ScriptOutline/Outline/Basic.lean

Outlines: labelled trees with a table of rows at every node.  Nodes are reached by paths of
child positions, listed in pre-order, and written as indented text.  The listing keeps the
nodes that are still to come on a stack; `preorder` is the same listing by recursion.
-/
import ScriptOutline.Code.Row

namespace ScriptOutline

/-- A labelled tree.  The rows are sorted by name. -/
structure Outline where
  label : String
  rows : List Row
  children : List Outline
  deriving Inhabited, Repr

namespace Outline

/-- A node with a label only. -/
def ofLabel (label : String) (children : List Outline) : Outline := ⟨label, [], children⟩

/-! ### Navigation -/

/-- The node at a path of child positions. -/
def get? (t : Outline) : List Nat → Option Outline
  | [] => some t
  | i :: path =>
    match t.children[i]? with
    | some child => child.get? path
    | none => none

/-- The first child with a label. -/
def child? (t : Outline) (label : String) : Option Outline :=
  t.children.find? (·.label == label)

/-- The row of a name among `rows[low]`, .., `rows[high - 1]`, which are sorted by name. -/
def searchRows (rows : List Row) (name : String) (low high : Nat) : Option Row :=
  if low < high then
    let middle := low + (high - low) / 2
    match rows[middle]? with
    | none => none
    | some row =>
      if row.name = name then some row
      else if row.name < name then searchRows rows name (middle + 1) high
      else searchRows rows name low middle
  else none
termination_by high - low

/-- The row of a name. -/
def row? (t : Outline) (name : String) : Option Row :=
  searchRows t.rows name 0 t.rows.length

/-! ### Pre-order -/

mutual

/-- The number of nodes. -/
def size : Outline → Nat
  | ⟨_, _, children⟩ => 1 + sizeAll children

def sizeAll : List Outline → Nat
  | [] => 0
  | t :: rest => t.size + sizeAll rest

end

theorem size_eq (t : Outline) : t.size = 1 + sizeAll t.children := by
  cases t; rw [size]

/-- Nodes at one depth. -/
def atDepth (depth : Nat) (ts : List Outline) : List (Nat × Outline) := ts.map (depth, ·)

/-- The number of nodes on and below a stack. -/
def stackSize (stack : List (Nat × Outline)) : Nat := sizeAll (stack.map Prod.snd)

theorem sizeAll_append (xs ys : List Outline) : sizeAll (xs ++ ys) = sizeAll xs + sizeAll ys := by
  induction xs with
  | nil => simp [sizeAll]
  | cons x xs ih => simp [sizeAll, ih, Nat.add_assoc]

theorem map_snd_atDepth (depth : Nat) (ts : List Outline) :
    (atDepth depth ts).map Prod.snd = ts := by
  simp [atDepth, Function.comp_def]

/-- Takes the nodes off a stack, the top one first, and puts the children of each on the
stack in its place. -/
def unfoldStack : List (Nat × Outline) → List (Nat × Outline)
  | [] => []
  | (depth, t) :: rest => (depth, t) :: unfoldStack (atDepth (depth + 1) t.children ++ rest)
termination_by stack => stackSize stack
decreasing_by
  rw [stackSize, stackSize, List.map_append, map_snd_atDepth, sizeAll_append, List.map_cons,
    sizeAll, size_eq t]
  omega

/-- All nodes in pre-order, with their depths. -/
def nodes (t : Outline) : List (Nat × Outline) := unfoldStack [(0, t)]

mutual

/-- A node and the nodes below it, with their depths from `depth` on. -/
def preorder (depth : Nat) : Outline → List (Nat × Outline)
  | ⟨label, rows, children⟩ => (depth, ⟨label, rows, children⟩) :: preorderAll (depth + 1) children

def preorderAll (depth : Nat) : List Outline → List (Nat × Outline)
  | [] => []
  | t :: rest => t.preorder depth ++ preorderAll depth rest

end

/-! ### Text -/

/-- The text of a row: `name: type = value`. -/
def rowText (r : Row) : String := r.name ++ ": " ++ r.type ++ " = " ++ r.value.getD "null"

/-- The line of a node, and below it those of its rows if they are wanted. -/
def nodeText (withRows : Bool) (depth : Nat) (t : Outline) : String :=
  let indent := repeated "  " depth
  indent ++ t.label ++ "\n" ++
    (if withRows then joinWith "" (t.rows.map fun r => indent ++ "  | " ++ rowText r ++ "\n")
    else "")

/-- The whole tree as indented lines. -/
def render (withRows : Bool) (t : Outline) : String :=
  joinWith "" (t.nodes.map fun (depth, node) => nodeText withRows depth node)

end Outline

end ScriptOutline
