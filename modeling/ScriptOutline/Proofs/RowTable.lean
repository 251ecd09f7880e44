/-
ScriptOutline/Proofs/RowTable.lean

The table of rows at a node, and the search for a row by its name.

The rows of a node are declared in the order in which a reader of the language would name them,
some of them shared by all nodes of a sort and some particular to a kind.  The table at the node
holds the same rows in the order of their names, and a row is found there by halving the part of
the table where it can still be.  That is only right if no name is declared twice, which is seen
kind by kind (`Described.nodup_names`).  Then the table rises strictly (`sortRows_ascending`), and
one half can be dropped at every step: a row of the name always stands in the other one
(`Outline.searchRows_eq_some`).

Main result: the table of every node is a strictly rising arrangement of the declared rows, and a
name leads to the row that was declared under it (`Described.finds_declared`).
-/
import ScriptOutline.Proofs.Forest
import Mathlib.Data.String.Basic

namespace ScriptOutline

/-! ### Rows in the order of their names -/

/-- The names rise strictly, in the lexicographic order of their characters. -/
def Row.Ascending (rows : List Row) : Prop := rows.Pairwise fun a b => a.name < b.name

theorem sortRows_perm (rows : List Row) : (sortRows rows).Perm rows := List.mergeSort_perm rows _

/-- Rows whose names are all different rise strictly once they are sorted. -/
theorem sortRows_ascending {rows : List Row} (h : (rows.map Row.name).Nodup) :
    Row.Ascending (sortRows rows) := by
  have hle : (sortRows rows).Pairwise fun a b => a.name ≤ b.name := by
    have hsorted : (sortRows rows).Pairwise fun a b => decide (a.name ≤ b.name) = true := by
      apply List.pairwise_mergeSort
      · intro a b c hab hbc
        rw [decide_eq_true_eq] at *
        exact le_trans hab hbc
      · intro a b
        simpa using le_total a.name b.name
    exact hsorted.imp fun hab => of_decide_eq_true hab
  have hne : (sortRows rows).Pairwise fun a b => a.name ≠ b.name := by
    rw [← List.pairwise_map]
    exact ((sortRows_perm rows).map Row.name).nodup_iff.mpr h
  exact hle.imp₂ (fun _ _ hab hne => lt_of_le_of_ne hab hne) hne

namespace Outline

/-! ### The search -/

variable {rows : List Row} {name : String} {row : Row}

/-- What the search answers is a row of the name, whatever the order of the rows is. -/
theorem of_searchRows_eq_some {low high : Nat} (h : searchRows rows name low high = some row) :
    row ∈ rows ∧ row.name = name := by
  fun_induction searchRows rows name low high with
  | case1 => cases h
  | case2 low high hlt middle row' hmiddle hname =>
    cases h
    exact ⟨List.mem_of_getElem? hmiddle, hname⟩
  | case3 low high hlt middle row' hmiddle hname hless ih => exact ih h
  | case4 low high hlt middle row' hmiddle hname hless ih => exact ih h
  | case5 => cases h

/-- Among rising rows the search finds the row of the name if it stands in the part that is
searched. -/
theorem searchRows_eq_some (hrows : Row.Ascending rows) (hname : row.name = name) {i : Nat}
    (hi : rows[i]? = some row) {low high : Nat} (hlow : low ≤ i) (hhigh : i < high)
    (hbound : high ≤ rows.length) : searchRows rows name low high = some row := by
  -- rows at different positions have names in the order of the positions
  have hless : ∀ {j k : Nat} {a b : Row}, rows[j]? = some a → rows[k]? = some b → j < k →
      a.name < b.name := by
    intro j k a b hj hk hjk
    obtain ⟨hj', rfl⟩ := List.getElem?_eq_some_iff.mp hj
    obtain ⟨hk', rfl⟩ := List.getElem?_eq_some_iff.mp hk
    exact List.pairwise_iff_getElem.mp hrows j k hj' hk' hjk
  fun_induction searchRows rows name low high with
  | case1 low high hlt middle hmiddle =>
    -- there is a row in the middle of what is searched
    have hout : rows.length ≤ low + (high - low) / 2 := List.getElem?_eq_none_iff.mp hmiddle
    omega
  | case2 low high hlt middle row' hmiddle hfound =>
    -- two rows of one name stand at one position
    obtain him | him | him := Nat.lt_trichotomy i middle
    · exact absurd (hless hi hmiddle him) (by rw [hname, hfound]; exact lt_irrefl name)
    · rw [him, hmiddle] at hi
      exact hi
    · exact absurd (hless hmiddle hi him) (by rw [hname, hfound]; exact lt_irrefl name)
  | case3 low high hlt middle row' hmiddle hother hsmaller ih =>
    -- everything up to the middle is smaller than the name
    apply ih _ hhigh hbound
    by_contra hle
    obtain him | him := Nat.lt_or_eq_of_le (Nat.le_of_not_lt hle)
    · exact absurd (hless hi hmiddle him) (by rw [hname]; exact lt_asymm hsmaller)
    · rw [him, hmiddle] at hi
      cases hi
      exact hother hname
  | case4 low high hlt middle row' hmiddle hother hsmaller ih =>
    -- everything from the middle on is greater than the name
    have hmiddle' : middle < high := by
      show low + (high - low) / 2 < high
      omega
    refine ih hlow ?_ (Nat.le_trans (Nat.le_of_lt hmiddle') hbound)
    by_contra hle
    obtain him | him := Nat.lt_or_eq_of_le (Nat.le_of_not_lt hle)
    · exact hsmaller (hname ▸ hless hmiddle hi him)
    · rw [← him, hmiddle] at hi
      cases hi
      exact hother hname
  | case5 low high hlt => exact absurd (Nat.lt_of_le_of_lt hlow hhigh) hlt

/-- Among rising rows a name leads to the row of this name, and to none if there is none. -/
theorem row?_eq_some_iff_of_ascending {t : Outline} (h : Row.Ascending t.rows) :
    t.row? name = some row ↔ row ∈ t.rows ∧ row.name = name := by
  constructor
  · exact of_searchRows_eq_some
  · rintro ⟨hmem, hname⟩
    obtain ⟨i, hi⟩ := List.mem_iff_getElem?.mp hmem
    apply searchRows_eq_some h hname hi (Nat.zero_le i) _ (Nat.le_refl _)
    exact (List.getElem?_eq_some_iff.mp hi).1

end Outline

/-! ### The names of a kind -/

namespace Row

@[simp] theorem name_ofString (name value : String) : (ofString name value).name = name := rfl

@[simp] theorem name_ofBool (name : String) (value : Bool) : (ofBool name value).name = name := rfl

@[simp] theorem name_ofNat (name : String) (value : Nat) : (ofNat name value).name = name := rfl

@[simp] theorem name_ofType (name : String) (type : TypeRef) : (ofType name type).name = name := rfl

@[simp] theorem name_ofSpan (span : Span) : (ofSpan span).name = "span" := rfl

end Row

theorem Expression.nodup_names (e : Expression) : (e.rows.map Row.name).Nodup := by
  obtain ⟨node, span, inferred⟩ := e
  cases node <;> simp [rows, ExpressionNode.rows]

theorem Statement.nodup_names (s : Statement) : (s.rows.map Row.name).Nodup := by
  obtain ⟨node, span⟩ := s
  cases node <;> simp [rows, StatementNode.rows]

/-- What a node is made of: code, a class or a member of a class. -/
inductive Described where
  | part (p : Part)
  | classNode (c : CompiledClass)
  | constructorNode (c : Constructor)
  | methodNode (m : Method)
  | fieldNode (f : Field)
  | propertyNode (p : Property)
  | annotationNode (a : Annotation)

namespace Described

def kind : Described → Kind
  | .part p => p.kind
  | .classNode _ => .classNode
  | .constructorNode _ => .constructorNode
  | .methodNode _ => .methodNode
  | .fieldNode _ => .fieldNode
  | .propertyNode _ => .propertyNode
  | .annotationNode _ => .annotationNode

/-- The rows in the order of their declaration. -/
def rows : Described → List Row
  | .part p => p.rows
  | .classNode c => c.rows
  | .constructorNode c => c.rows
  | .methodNode m => m.rows
  | .fieldNode f => f.rows
  | .propertyNode p => p.rows
  | .annotationNode a => a.rows

/-- No kind declares two rows of one name. -/
theorem nodup_names (d : Described) : (d.rows.map Row.name).Nodup := by
  cases d with
  | part p =>
    cases p with
    | expression e => exact e.nodup_names
    | statement s => exact s.nodup_names
    | catchClause c => simp [rows, Part.rows, CatchClause.rows]
    | caseClause c => simp [rows, Part.rows, CaseClause.rows]
  | classNode c => simp [rows, CompiledClass.rows]
  | constructorNode c => simp [rows, Constructor.rows]
  | methodNode m => simp [rows, Method.rows]
  | fieldNode f => simp [rows, Field.rows]
  | propertyNode p => simp [rows, Property.rows]
  | annotationNode a => simp [rows, Annotation.rows]

/-- The node above the given children. -/
def node (labels : LabelMapping) (d : Described) (children : List Outline) : Outline :=
  .ofNode labels d.kind d.rows children

/-- **The table of a node.**  Whatever a node is made of, its table holds the declared rows, each
once, and rises strictly by name.  So the search in it answers a row if and only if this row is
declared and has the name asked for; a name that is not declared leads to none. -/
theorem finds_declared (labels : LabelMapping) (d : Described) (children : List Outline) :
    (d.node labels children).rows.Perm d.rows ∧ Row.Ascending (d.node labels children).rows ∧
      ∀ (name : String) (row : Row),
        (d.node labels children).row? name = some row ↔ row ∈ d.rows ∧ row.name = name := by
  have hperm : (d.node labels children).rows.Perm d.rows := sortRows_perm d.rows
  have hrises : Row.Ascending (d.node labels children).rows := sortRows_ascending d.nodup_names
  refine ⟨hperm, hrises, fun name row => ?_⟩
  rw [Outline.row?_eq_some_iff_of_ascending hrises, hperm.mem_iff]

end Described

end ScriptOutline
