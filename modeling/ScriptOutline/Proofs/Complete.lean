/-
ScriptOutline/Proofs/Complete.lean

Code in which nothing is missing but what may be.  A part has a node in an outline unless it is a
placeholder, so it has as many children as it has direct parts that are present
(`Part.forests_eq`).  Rows that count parts do not look for placeholders.  They tell the number of
the children of code that is complete (`Part.Complete`): the statements of a block and the items
of a list are all present, and so is what an `if`, a `try` or a `switch` always has.

Where a clause may be missing, a row tells whether the statement that stands for it is empty.  A
`finally` or `default` clause that is empty is missing.  The `else` branch of an `if` can be a `;`
instead, which is empty and present, so nothing is asked of it.
-/
import Mathlib.Data.List.Basic
import ScriptOutline.Proofs.Forest

namespace ScriptOutline

/-! ### Nodes -/

namespace Part

variable (labels : LabelMapping) {p : Part} {ps : List Part}

/-- The part is there to be shown: it is no placeholder. -/
def Present (p : Part) : Prop := p.isPlaceholder = false

/-- The node of a part above the trees of its direct parts. -/
def node (p : Part) : Outline :=
  .ofNode labels p.kind p.rows (p.children.flatMap (·.forest labels))

theorem Present.forest_eq (h : p.Present) : p.forest labels = [p.node labels] := by
  rw [Part.forest_eq, if_neg (by rw [h]; exact Bool.false_ne_true), node]

theorem forest_of_isPlaceholder (h : p.isPlaceholder = true) : p.forest labels = [] := by
  rw [Part.forest_eq, if_pos h]

/-- Parts that are all present have one tree each. -/
theorem forests_eq (h : ∀ p ∈ ps, p.Present) :
    ps.flatMap (·.forest labels) = ps.map (·.node labels) := by
  rw [List.map_eq_flatMap]
  exact List.flatMap_congr fun p hp => (h p hp).forest_eq labels

end Part

/-! ### Complete code -/

/-- If the statement is empty, it is the placeholder and no `;`. -/
def Statement.MissingIfEmpty (s : Statement) : Prop :=
  s.isEmpty = true → (Part.statement s).isPlaceholder = true

/-- No items are missing, unless they are the parts of a counting loop. -/
def ExpressionNode.Complete : ExpressionNode → Prop
  | .sequence form items => form ≠ .clauses → ∀ e ∈ items, (Part.expression e).Present
  | _ => True

/-- The statements of a block are there, and so are the parts that every `if`, `try` or `switch`
has.  An empty `finally` or `default` clause is missing. -/
def StatementNode.Complete : StatementNode → Prop
  | .block statements _ => ∀ s ∈ statements, (Part.statement s).Present
  | .branch condition whenTrue _ =>
    (Part.expression condition).Present ∧ (Part.statement whenTrue).Present
  | .tryCatch body _ finallyBlock => (Part.statement body).Present ∧ finallyBlock.MissingIfEmpty
  | .switch subject _ defaultBlock =>
    (Part.expression subject).Present ∧ defaultBlock.MissingIfEmpty
  | _ => True

/-- Nothing is missing in the part itself but what may be. -/
def Part.Complete : Part → Prop
  | .expression e => e.node.Complete
  | .statement s => s.node.Complete
  | _ => True

end ScriptOutline
