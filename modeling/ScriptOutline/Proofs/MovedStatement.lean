/-
ScriptOutline/Proofs/MovedStatement.lean

The rules for statements, read at another place, and the knot of the grammar
(`level_movesTo`).  Levels that differ are compared: on texts of at most `n` characters all levels
above `n` come to the same end, because a rule uses the level below only behind at least one
character.

Of a statement only that it moves is told.  No rule computes a span from that of a statement, and
the placeholders for missing parts, which stay where they are, need no case of their own.
-/
import ScriptOutline.Proofs.MovedExpression
import ScriptOutline.Proofs.StatementSpan

namespace ScriptOutline

section

variable {k : Nat}

/-- The second statement is the first one at another place. -/
abbrev Statement.MovesTo (k : Nat) (s s' : Statement) : Prop := s' = s.moved k

abbrev StatementNode.MovesTo (k : Nat) (node node' : StatementNode) : Prop :=
  node' = node.revised (.moving k)

end

namespace Grammar

open ScriptOutline.Grammar.Parser

variable {k n : Nat} {g g' : Inner}

/-! ### Blocks and declarations -/

theorem moves_block {statement statement' : Parser Statement}
    (h : ∀ m < n, Moves k m statement statement' (Statement.MovesTo k)) :
    Moves k n (block statement) (block statement') (Statement.MovesTo k) :=
  .spanned_bind (.between rfl fun m hm => (h m hm).many.mapped.mono fun _ _ hstatements _ _ =>
    .pure (by rw [hstatements, ← revisedStatements_eq_map]; rfl))

theorem moves_inBrackets (h : Inner.Below k n g g') :
    Moves k n (inBrackets g) (inBrackets g') (Expression.MovesTo k) :=
  .between rfl fun m hm => (h.inner m hm).expression

theorem moves_optionalSymbol (s : String) :
    Moves k n (optionalSymbol s) (optionalSymbol s) Eq :=
  (moves_symbol s).optional_same.bind_same fun _ => .pure_same ()

/-- A statement that may be missing; the placeholder stays where it is. -/
theorem orMissing_moved (s : Option Statement) :
    orMissing (s.map (Statement.moved k)) = (orMissing s).moved k := by
  cases s <;> rfl

theorem orMissingExpression_moved (e : Option Expression) :
    orMissingExpression (e.map (Expression.moved k)) = (orMissingExpression e).moved k := by
  cases e <;> rfl

theorem orNull_moved (e : Option Expression) :
    orNull (e.map (Expression.moved k)) = (orNull e).moved k := by
  cases e <;> rfl

theorem moves_optionalStatement {p p' : Parser Statement}
    (h : Moves k n p p' (Statement.MovesTo k)) :
    Moves k n (optional p) (optional p') fun x y => y = x.map (Statement.moved k) :=
  h.optional.mono fun _ _ hvalue => eq_map_of_rel hvalue fun _ _ hs => hs

theorem moves_declaration (h : Inner.Below k n g g') :
    Moves k n (declaration g) (declaration g') (Expression.MovesTo k) := by
  refine .spanned_bind ((moves_keyword _).optional_same.bind_same fun _ => ?_)
  have htype : Moves k n (orElse (do keyword "def"; pure none) (some <$> typeName g))
      (orElse (do keyword "def"; pure none) (some <$> typeName g')) Eq :=
    (Moves.keyword_pure _ _).orElse (.map ((moves_typeName h).mono fun _ _ h => congrArg some h))
  refine htype.bind_same fun type => moves_identifier.spanned.bind ?_
  rintro ⟨name, nameSpan⟩ ⟨_, _⟩ ⟨rfl, -, rfl⟩
  refine (moves_optionalExpression ((moves_symbol _).bind_same fun _ => moves_expression h)).bind ?_
  rintro value _ rfl
  refine .pure fun span hspan => .pure (.of_written ?_ hspan)
  rw [orMissingExpression_moved]
  cases type <;> rfl

/-! ### Branches and loops -/

theorem moves_branch (h : Inner.Below k n g g') :
    Moves k n (branch g) (branch g') (StatementNode.MovesTo k) := by
  refine .behind_keyword _ fun m hm => (moves_inBrackets (h.of_le hm.le)).bind ?_
  rintro condition _ ⟨rfl, -⟩
  refine (h.inner m hm).statement.bind fun whenTrue _ htrue => ?_
  refine (moves_optionalStatement ((moves_keyword _).bind_same fun _ =>
    (h.inner m hm).statement)).bind fun whenFalse _ hfalse => .pure ?_
  rw [htrue, hfalse, orMissing_moved, Expression.asCondition_moved]
  rfl

theorem moves_whileLoop (h : Inner.Below k n g g') :
    Moves k n (whileLoop g) (whileLoop g') (StatementNode.MovesTo k) := by
  refine .behind_keyword _ fun m hm => (moves_inBrackets (h.of_le hm.le)).bind ?_
  rintro condition _ ⟨rfl, -⟩
  refine (h.inner m hm).statement.bind fun body _ hbody => .pure ?_
  rw [hbody, Expression.asCondition_moved]
  rfl

theorem moves_doWhile (h : Inner.Below k n g g') :
    Moves k n (doWhile g) (doWhile g') (StatementNode.MovesTo k) := by
  refine .behind_keyword _ fun m hm => (h.inner m hm).statement.bind fun body _ hbody => ?_
  refine (moves_keyword _).bind_same fun _ => (moves_inBrackets (h.of_le hm.le)).bind ?_
  rintro condition _ ⟨rfl, -⟩
  refine .pure ?_
  rw [hbody, Expression.asCondition_moved]
  rfl

theorem moves_forEach (h : Inner.Below k n g g') :
    Moves k n (forEach g) (forEach g') (StatementNode.MovesTo k) := by
  refine .behind_keyword _ fun m hm => ?_
  have hhead : Moves k m
      (do let binding ← typedName g
          orElse (keyword "in") (symbol ":")
          let collection ← expression g
          pure (binding, collection))
      (do let binding ← typedName g'
          orElse (keyword "in") (symbol ":")
          let collection ← expression g'
          pure (binding, collection)) (PairMoves k) :=
    (moves_typedName (h.of_le hm.le)).bind_same fun _ =>
      ((moves_keyword _).orElse (moves_symbol _)).bind_same fun _ =>
        (moves_expression (h.of_le hm.le)).bind fun _ _ he => .pure (.intro _ he)
  refine (Moves.between rfl fun l hl => hhead.of_le hl.le).bind ?_
  rintro ⟨binding, collection⟩ _ ⟨rfl, -⟩
  exact (h.inner m hm).statement.bind fun body _ hbody => .pure (hbody ▸ rfl)

theorem moves_clauses (h : Inner.Below k n g g') :
    Moves k n (clauses g) (clauses g') (Expression.MovesTo k) := by
  have hclause := moves_optionalExpression (moves_expression h)
  refine .spanned_bind ((moves_optionalExpression
    ((moves_declaration h).orElse (moves_expression h))).bind fun first _ hfirst => ?_)
  refine (moves_symbol _).bind_same fun _ => hclause.bind fun condition _ hcondition => ?_
  refine (moves_symbol _).bind_same fun _ => hclause.bind fun step _ hstep => ?_
  refine .pure fun span hspan => .pure (.of_written ?_ hspan)
  rw [hfirst, hcondition, hstep]
  simp only [List.map_cons, List.map_nil, orMissingExpression_moved]
  rfl

theorem moves_countingLoop (h : Inner.Below k n g g') :
    Moves k n (countingLoop g) (countingLoop g') (StatementNode.MovesTo k) := by
  refine .behind_keyword _ fun m hm => ?_
  refine (Moves.between rfl fun l hl => moves_clauses (h.of_le (hl.trans hm).le)).bind ?_
  rintro parts _ ⟨rfl, -⟩
  exact (h.inner m hm).statement.bind fun body _ hbody => .pure (hbody ▸ rfl)

/-! ### Clauses -/

theorem moves_catchBinding (h : Inner.Below k n g g') :
    Moves k n (catchBinding g) (catchBinding g') Eq :=
  .orElse
    ((moves_classType h).bind_same fun _ => moves_identifier.bind_same fun _ => .pure_same _)
    (moves_identifier.bind_same fun _ => .pure_same _)

theorem Inner.Below.block (h : Inner.Below k n g g') :
    Moves k n (block g.statement) (block g'.statement) (Statement.MovesTo k) :=
  moves_block fun m hm => (h.inner m hm).statement

theorem moves_catchClause (h : Inner.Below k n g g') :
    Moves k n (catchClause g) (catchClause g') fun c c' => c' = c.revised (.moving k) := by
  refine .spanned_bind ((moves_keyword _).bind_same fun _ => ?_)
  refine (Moves.between rfl fun m hm => moves_catchBinding (h.of_le hm.le)).bind_same
    fun binding => ?_
  exact h.block.bind fun code _ hcode => .pure fun _ _ => .pure (hcode ▸ rfl)

theorem moves_tryCatch (h : Inner.Below k n g g') :
    Moves k n (tryCatch g) (tryCatch g') (StatementNode.MovesTo k) := by
  refine (moves_keyword _).bind_same fun _ => h.block.bind fun body _ hbody => ?_
  refine (moves_catchClause h).many.mapped.bind fun catches _ hcatches => ?_
  refine (moves_optionalStatement ((moves_keyword _).bind_same fun _ => h.block)).bind
    fun finallyBlock _ hfinally => .pure ?_
  rw [hbody, hfinally, orMissing_moved, hcatches, ← revisedCatches_eq_map]
  rfl

theorem moves_caseBody (hinner : Inner.MovesTo k n g g') :
    Moves k n (caseBody g) (caseBody g') (Statement.MovesTo k) :=
  .spanned_bind (hinner.statement.many.mapped.mono fun _ _ hstatements _ _ =>
    .pure (by rw [hstatements, ← revisedStatements_eq_map]; rfl))

theorem moves_caseClause (h : Inner.Below k n g g') :
    Moves k n (caseClause g) (caseClause g') fun c c' => c' = c.revised (.moving k) := by
  refine .spanned_bind (.behind_keyword _ fun m hm => (moves_expression (h.of_le hm.le)).bind ?_)
  rintro subject _ ⟨rfl, -⟩
  refine (moves_symbol _).bind_same fun _ => (moves_caseBody (h.inner m hm)).bind
    fun code _ hcode => .pure fun _ _ => .pure (hcode ▸ rfl)

theorem moves_defaultClause (h : Inner.Below k n g g') :
    Moves k n (defaultClause g) (defaultClause g') (Statement.MovesTo k) :=
  .behind_keyword _ fun m hm => (moves_symbol _).bind_same fun _ => moves_caseBody (h.inner m hm)

theorem moves_switch (h : Inner.Below k n g g') :
    Moves k n (switch g) (switch g') (StatementNode.MovesTo k) := by
  refine (moves_keyword _).bind_same fun _ => (moves_inBrackets h).bind ?_
  rintro subject _ ⟨rfl, -⟩
  have hclauses : Moves k n
      (do let cases ← many (caseClause g)
          let defaultBlock ← optional (defaultClause g)
          pure (cases, defaultBlock))
      (do let cases ← many (caseClause g')
          let defaultBlock ← optional (defaultClause g')
          pure (cases, defaultBlock)) fun x y =>
        y = (revisedCases (.moving k) x.1, x.2.map (Statement.moved k)) :=
    (moves_caseClause h).many.mapped.bind fun cases _ hcases =>
      (moves_optionalStatement (moves_defaultClause h)).bind fun _ _ hdefault =>
        .pure (by rw [hdefault, hcases, ← revisedCases_eq_map])
  refine (Moves.between rfl fun m hm => hclauses.of_le hm.le).bind ?_
  rintro ⟨cases, defaultBlock⟩ _ rfl
  refine .pure ?_
  rw [orMissing_moved]
  rfl

theorem moves_synchronized (h : Inner.Below k n g g') :
    Moves k n (synchronized g) (synchronized g') (StatementNode.MovesTo k) := by
  refine (moves_keyword _).bind_same fun _ => (moves_inBrackets h).bind ?_
  rintro lock _ ⟨rfl, -⟩
  exact h.block.bind fun _ _ hcode => .pure (hcode ▸ rfl)

/-! ### Simple statements -/

theorem moves_throwing (h : Inner.Below k n g g') :
    Moves k n (throwing g) (throwing g') (StatementNode.MovesTo k) :=
  (moves_keyword _).bind_same fun _ => (moves_expression h).bind fun _ _ hvalue =>
    .pure (hvalue.eq ▸ rfl)

theorem moves_returning (h : Inner.Below k n g g') :
    Moves k n (returning g) (returning g') (StatementNode.MovesTo k) :=
  (moves_keyword _).bind_same fun _ => (moves_optionalExpression (moves_expression h)).bind
    fun _ _ hvalue => .pure (by rw [hvalue, orNull_moved]; rfl)

theorem moves_assertion (h : Inner.Below k n g g') :
    Moves k n (assertion g) (assertion g') (StatementNode.MovesTo k) := by
  refine (moves_keyword _).bind_same fun _ => (moves_expression h).bind ?_
  rintro condition _ ⟨rfl, -⟩
  refine (moves_optionalExpression (((moves_symbol _).orElse (moves_symbol _)).bind_same fun _ =>
    moves_expression h)).bind fun message _ hmessage => .pure ?_
  rw [hmessage, orNull_moved, Expression.asCondition_moved]
  rfl

theorem moves_statementNode (h : Inner.Below k n g g') :
    Moves k n (statementNode g) (statementNode g') (StatementNode.MovesTo k) := by
  have hexpression {p p' : Parser Expression} (hp : Moves k n p p' (Expression.MovesTo k)) :
      Moves k n (StatementNode.expression <$> p) (StatementNode.expression <$> p')
        (StatementNode.MovesTo k) := .map (hp.mono fun _ _ he => congrArg _ he.eq)
  have hword (w : String) {node : StatementNode} (hnode : node = node.revised (.moving k)) :
      Moves k n (do keyword w; pure node) (do keyword w; pure node) (StatementNode.MovesTo k) :=
    (moves_keyword w).bind_same fun _ => .pure hnode
  exact (moves_branch h).firstOf (.cons (moves_whileLoop h) (.cons (moves_doWhile h)
    (.cons (moves_forEach h) (.cons (moves_countingLoop h) (.cons (moves_tryCatch h)
      (.cons (moves_switch h) (.cons (hword _ rfl) (.cons (hword _ rfl)
        (.cons (moves_synchronized h) (.cons (moves_throwing h) (.cons (moves_returning h)
          (.cons (moves_assertion h) (.cons (hexpression (moves_declaration h))
            (.cons (hexpression (moves_expression h)) .nil))))))))))))))

theorem moves_statement (h : Inner.Below k n g g') :
    Moves k n (statement g) (statement g') (Statement.MovesTo k) := by
  refine (h.block.orElse (.spanned_bind ?_)).orElse ?_
  · exact (moves_statementNode h).mono fun _ _ hnode _ _ =>
      (moves_optionalSymbol _).bind_same fun _ => .pure (hnode ▸ rfl)
  · exact (moves_symbol _).spanned_same fun _ _ _ => .pure rfl

/-! ### The knot -/

/-- On texts of at most `n` characters, all levels above `n` come to the same end. -/
theorem level_movesTo (n i j : Nat) (hi : n < i) (hj : n < j) :
    Inner.MovesTo k n (level i) (level j) := by
  induction n using Nat.strong_induction_on generalizing i j with
  | _ n ih =>
    cases i with
    | zero => omega
    | succ i =>
      cases j with
      | zero => omega
      | succ j =>
        -- the rules of level `i + 1` use level `i`, on shorter texts than their own
        have h : Inner.Below k n (level i) (level j) :=
          ⟨fun _ => level_sound i, fun m hm => ih m hm i j (by omega) (by omega)⟩
        exact ⟨moves_classType h, moves_unary h, moves_expression h, moves_statement h⟩

end Grammar

end ScriptOutline
