/-
ScriptOutline/Proofs/Precedence.lean

The parser groups a chain of names and binary operators as precedence climbing does.

Each tier of the grammar reads its operands with the tier before it.  So the invariant of the
tiers (`ReadsTier`) says that a tier reads a chain up to the first operator that is too loose
for it, and answers the tree climbed so far.  Where a tier takes the first characters of an
operator that is not its own, no operand follows and it gives them back (`ReadsSigns.looser`).

The main result is `parse_return_chain`.
-/
import ScriptOutline.Proofs.Signs

namespace ScriptOutline.Grammar

open ScriptOutline.Grammar.Parser

/-! ### Operators of a chain -/

/-- The parser reads the operators of a tier, and gets stuck at looser ones. -/
structure ReadsOperators (tier : Nat) (p : Parser String) : Prop where
  own : ∀ l rest, l.operator.tier = tier →
    Reads p (linksText (l :: rest)) (chainText l.operand rest) (· = l.operator.text)
  looser : ∀ l rest, tier < l.operator.tier → Fails p (linksText (l :: rest)) ∨
    ∃ cs, Reads p (linksText (l :: rest)) cs (fun _ => True) ∧ Barren cs
  ending : Fails p []

/-- A link of a chain is an operator before its operand and the links behind that. -/
theorem ReadsSigns.readsOperators {tier : Nat} {p : Parser String} (h : ReadsSigns tier p) :
    ReadsOperators tier p where
  own l rest ht := h.own l.operator l.after _ (solid_chainText l.operand rest) ht
  looser l rest ht := h.looser l.operator l.after _ (solid_chainText l.operand rest) ht
  ending := h.ending [] Ending.nil

/-! ### Tiers -/

/-- The parser reads a chain up to the first operator that does not come before the bound, and
answers what climbing up to there makes of it. -/
structure ReadsTier (bound : Nat) (p : Parser Expression) : Prop where
  reads : ∀ x links, Reads p (chainText x links)
    (linksText (climb bound (.operand x.text) links).2)
    (climb bound (.operand x.text) links).1.Spells
  barren : ∀ cs, Barren cs → Fails p cs

/-- The parser reads an operator of a tier with its right operand. -/
structure ReadsRounds (tier : Nat) (p : Parser (String × Expression)) : Prop where
  own : ∀ l rest, l.operator.tier = tier → Reads p (linksText (l :: rest))
    (linksText (climb tier (.operand l.operand.text) rest).2) fun r =>
      r.1 = l.operator.text ∧ (climb tier (.operand l.operand.text) rest).1.Spells r.2
  stopped : ∀ links, Stopped (tier + 1) links → Fails p (linksText links)

theorem ReadsRounds.of_operators {tier : Nat} {operator : Parser String}
    {operand : Parser Expression} (hoperator : ReadsOperators tier operator)
    (hoperand : ReadsTier tier operand) :
    ReadsRounds tier (do
      let operation ← operator
      let right ← operand
      pure (operation, right)) where
  own l rest ht :=
    (hoperator.own l rest ht).bind fun _ ho => (hoperand.reads l.operand rest).bind
      fun _ he => Reads.pure ⟨ho, he⟩
  stopped links hstop := by
    cases links with
    | nil => exact hoperator.ending.bind
    | cons l rest =>
      -- a looser operator is not read, or it is torn and no operand starts with its rest
      rcases hoperator.looser l rest (hstop l rfl) with hfail | ⟨cs, hreads, hbarren⟩
      · exact hfail.bind
      · exact Fails.bind_after hreads fun _ _ => (hoperand.barren cs hbarren).bind

/-- The rounds of a tier extend a tree as climbing does. -/
theorem ReadsRounds.repeats {tier : Nat} (htier : tier < assignmentTier)
    {p : Parser (String × Expression)} (hp : ReadsRounds tier p) (left : Tree)
    (links : List Link) (hstop : Stopped tier links) :
    Repeats p (linksText links) (linksText (climb (tier + 1) left links).2) fun rs =>
      ∀ e, left.Spells e → (climb (tier + 1) left links).1.Spells
        (rs.foldl (fun left (operation, right) => binaryOf left operation right) e) := by
  match links with
  | [] =>
    rw [climb_nil]
    exact Repeats.stop (hp.stopped [] (by simp [Stopped])) fun e he => he
  | l :: rest =>
    by_cases ht : l.operator.tier = tier
    · -- one round takes the operator with what climbing makes its right operand
      have hbound : l.operator.operandBound = tier := by
        rw [Operator.operandBound, if_neg (by omega), ht]
      have hsuffix := climb_suffix tier (.operand l.operand.text) rest
      rw [climb_cons_of_lt left rest (by omega), hbound]
      have ih := ReadsRounds.repeats htier hp
        (.node left l.operator.text (climb tier (.operand l.operand.text) rest).1) _
        (stopped_climb tier (.operand l.operand.text) rest)
      refine Repeats.round (hp.own l rest ht) ?_ ih ?_
      · exact Nat.lt_of_le_of_lt (length_linksText_le hsuffix) (length_linksText_lt l rest)
      · rintro ⟨operation, right⟩ rs ⟨rfl, hright⟩ hrs e he
        exact hrs _ ⟨e, right, _, rfl, he, hright⟩
    · have hlt : tier < l.operator.tier := by
        have := hstop l rfl
        omega
      rw [climb_cons_of_le left rest hlt]
      refine Repeats.stop (hp.stopped (l :: rest) ?_) fun e he => he
      rintro l' hl'
      cases hl'
      exact hlt
termination_by links.length
decreasing_by exact Nat.lt_succ_of_le hsuffix.length_le

/-- A tier over a tier. -/
theorem ReadsTier.chain {tier : Nat} (htier : tier < assignmentTier)
    {operand : Parser Expression} {others : Parser (String × Expression)}
    (hoperand : ReadsTier tier operand) (hothers : ReadsRounds tier others) :
    ReadsTier (tier + 1) (chain operand others) where
  reads x links := by
    rw [← climb_climb (Nat.le_succ tier)]
    refine (hoperand.reads x links).bind fun first hfirst => ?_
    refine (hothers.repeats htier _ _ (stopped_climb tier _ links)).many.bind fun rs hrs =>
      Reads.pure ?_
    exact hrs first hfirst
  barren cs hcs := (hoperand.barren cs hcs).bind

theorem ReadsTier.tier {tier : Nat} (htier : tier < assignmentTier)
    {operand : Parser Expression} {operator : Parser String}
    (hoperand : ReadsTier tier operand) (hoperator : ReadsOperators tier operator) :
    ReadsTier (tier + 1) (Grammar.tier operand operator) :=
  hoperand.chain htier (ReadsRounds.of_operators hoperator hoperand)

/-! ### The grammar -/

variable (g : Inner)

theorem coerced_readsTier : ReadsTier 0 (coerced g) where
  reads x links := by
    have hnone : climb 0 (.operand x.text) links = (.operand x.text, links) := by
      cases links with
      | nil => exact climb_nil _ _
      | cons l rest => exact climb_cons_of_le _ rest (Nat.zero_le _)
    rw [hnone]
    exact coerced_chainText g x links
  barren _ hcs := hcs.coerced g

theorem shift_readsTier : ReadsTier 4 (shift g) := by
  have hpower : ReadsTier 1 (power g) :=
    (coerced_readsTier g).tier (by decide) power_readsSigns.readsOperators
  have hmultiplicative : ReadsTier 2 (multiplicative g) :=
    hpower.tier (by decide) multiplicative_readsSigns.readsOperators
  have hadditive : ReadsTier 3 (additive g) :=
    hmultiplicative.tier (by decide) additive_readsSigns.readsOperators
  exact hadditive.tier (by decide) shift_readsSigns.readsOperators

/-- No operator is a range. -/
theorem range_readsTier : ReadsTier 4 (range g) where
  reads x links := by
    refine ((shift_readsTier g).reads x links).bind fun first hfirst => ?_
    have hrange : Fails (do
        let inclusive ← orElse (do symbol "..<"; pure false) (do symbol ".."; pure true)
        let last ← shift g
        pure (inclusive, last)) (linksText (climb 4 (.operand x.text) links).2) :=
      (Fails.orElse (symbol_linksText (s := "..<") (by decide) _).bind
        (symbol_linksText (s := "..") (by decide) _).bind).bind
    refine (Reads.optional_none hrange).bind fun last hlast => ?_
    rw [hlast]
    exact Reads.pure hfirst
  barren cs hcs := ((shift_readsTier g).barren cs hcs).bind

theorem relational_readsTier : ReadsTier 5 (relational g) := by
  -- a round can be a type test too, but its keyword is no operator
  have hrounds := ReadsRounds.of_operators relational_readsSigns.readsOperators
    (range_readsTier g)
  refine (range_readsTier g).chain (by decide) ⟨fun l rest ht => ?_, fun links hstop => ?_⟩
  · exact (hrounds.own l rest ht).orElse_left
  · exact Fails.orElse (hrounds.stopped links hstop)
      (keyword_linksText (w := "instanceof") (by decide) links).bind.bind

theorem logicalOr_readsTier : ReadsTier assignmentTier (logicalOr g) := by
  have hequality : ReadsTier 6 (equality g) :=
    (relational_readsTier g).tier (by decide) equality_readsSigns.readsOperators
  have hand : ReadsTier 7 (bitwiseAnd g) :=
    hequality.tier (by decide) bitwiseAnd_readsSigns.readsOperators
  have hxor : ReadsTier 8 (bitwiseXor g) :=
    hand.tier (by decide) bitwiseXor_readsSigns.readsOperators
  have hor : ReadsTier 9 (bitwiseOr g) :=
    hxor.tier (by decide) bitwiseOr_readsSigns.readsOperators
  have hlogicalAnd : ReadsTier 10 (logicalAnd g) :=
    hor.tier (by decide) logicalAnd_readsSigns.readsOperators
  exact hlogicalAnd.tier (by decide) logicalOr_readsSigns.readsOperators

/-- No operator is a conditional. -/
theorem conditional_readsTier : ReadsTier assignmentTier (conditional g) where
  reads x links := by
    refine ((logicalOr_readsTier g).reads x links).bind fun condition hcondition => ?_
    have hbranches : Fails (conditionalBranches g)
        (linksText (climb assignmentTier (.operand x.text) links).2) :=
      Fails.orElse (symbol_linksText (s := "?:") (by decide) _).bind
        (symbol_linksText (s := "?") (by decide) _).bind
    refine (Reads.optional_none hbranches).bind fun branches hnone => ?_
    rw [hnone]
    exact Reads.pure hcondition
  barren cs hcs := ((logicalOr_readsTier g).barren cs hcs).bind

theorem Barren.expression {cs : List Char} (hcs : Barren cs) : Fails (expression g) cs :=
  ((conditional_readsTier g).barren cs hcs).bind

/-- An expression is a chain, if what stands behind its first assignment is one. -/
theorem expression_of_value (x : Name) (links : List Link)
    (hvalue : ∀ l rest, l :: rest <:+ links →
      Reads g.expression (chainText l.operand rest) [] (chainTree l.operand rest).Spells) :
    Reads (expression g) (chainText x links) [] (chainTree x links).Spells := by
  have hstop := stopped_climb assignmentTier (.operand x.text) links
  have hsuffix := climb_suffix assignmentTier (.operand x.text) links
  refine ((conditional_readsTier g).reads x links).bind fun target htarget => ?_
  rw [chainTree, ← climb_climb (Nat.le_succ assignmentTier)]
  cases hrest : (climb assignmentTier (.operand x.text) links).2 with
  | nil =>
    rw [climb_nil]
    refine (Reads.optional_none (assignment_readsSigns.ending [] Ending.nil).bind).bind
      fun assigned hnone => ?_
    rw [hnone]
    exact Reads.pure htarget
  | cons l rest =>
    -- the conditional stopped at an assignment, which takes everything behind it
    rw [hrest] at hstop hsuffix
    have ht : l.operator.tier = assignmentTier :=
      Nat.le_antisymm l.operator.tier_le (hstop l rfl)
    have hbound : l.operator.operandBound = assignmentTier + 1 := by
      rw [Operator.operandBound, if_pos ht]
    rw [climb_cons_of_lt _ rest (Nat.lt_succ_of_le l.operator.tier_le), hbound, climb_all,
      climb_nil]
    have hassigned : Reads
        (do
          let operation ← signs "**=" ["+=", "-=", "*=", "/=", "%=", "="]
          let value ← g.expression
          pure (operation, value)) (linksText (l :: rest)) [] fun r =>
        r.1 = l.operator.text ∧ (chainTree l.operand rest).Spells r.2 :=
      (assignment_readsSigns.readsOperators.own l rest ht).bind fun _ ho =>
        (hvalue l rest hsuffix).bind fun _ hv => Reads.pure ⟨ho, hv⟩
    have hkept : ∀ r : String × Expression,
        r.1 = l.operator.text ∧ (chainTree l.operand rest).Spells r.2 →
        ∃ value, some r = some (l.operator.text, value) ∧
          (chainTree l.operand rest).Spells value := by
      rintro ⟨_, value⟩ ⟨ho, hv⟩
      exact ⟨value, congrArg some (by rw [← ho]), hv⟩
    have hsome : Reads _ (linksText (l :: rest)) [] fun assigned =>
        ∃ value, assigned = some (l.operator.text, value) ∧
          (chainTree l.operand rest).Spells value := hassigned.optional hkept
    refine hsome.bind ?_
    rintro assigned ⟨value, rfl, hv⟩
    exact Reads.pure ⟨target, value, _, rfl, htarget, hv⟩

/-- A chain is read as a whole.  Each of its assignments takes one level of nesting. -/
theorem expression_chainText :
    ∀ (n : Nat) (x : Name) (links : List Link), links.length ≤ n →
      Reads (expression (level n)) (chainText x links) [] (chainTree x links).Spells := by
  intro n
  induction n with
  | zero =>
    intro x links hlen
    refine expression_of_value _ x links fun l rest hsuffix => ?_
    exact absurd hsuffix.length_le (by simp; omega)
  | succ n ih =>
    intro x links hlen
    refine expression_of_value _ x links fun l rest hsuffix => ih l.operand rest ?_
    have := hsuffix.length_le
    rw [List.length_cons] at this
    omega

/-! ### Statements and scripts -/

/-- The text does not start with a type that has a name behind it. -/
def Untyped (cs : List Char) : Prop :=
  Fails (typeName g) cs ∨
    ∃ rest, Reads (typeName g) cs rest (fun _ => True) ∧ Fails identifier rest

/-- The text starts with no annotation, no block, and no keyword but `return`. -/
structure Undeclared (cs : List Char) : Prop where
  annotation : Fails (symbol "@") cs
  block : Fails (symbol "\x7b") cs
  keyword : ∀ w ∈ keywords, w ≠ "return" → Fails (keyword w) cs

namespace Undeclared

variable {cs : List Char} (h : Undeclared cs)
include h

theorem annotations : Reads (many (annotationUse g)) cs cs (· = []) :=
  Reads.many_none h.annotation.bind.spanned.bind

theorem word {w : String} (hw : w ∈ keywords ∧ w ≠ "return") : Fails (Grammar.keyword w) cs :=
  h.keyword w hw.1 hw.2

theorem modifiers : Reads Grammar.modifiers cs cs fun _ => True := by
  have hnone : Fails modifier cs := by
    refine Fails.firstOf (h.word (by decide)).bind ?_
    simp only [List.forall_mem_cons, List.not_mem_nil, false_implies, implies_true, and_true]
    exact ⟨(h.word (by decide)).bind, (h.word (by decide)).bind, (h.word (by decide)).bind,
      (h.word (by decide)).bind, (h.word (by decide)).bind, (h.word (by decide)).bind⟩
  exact (Reads.many_none hnone).bind fun _ _ => Reads.pure trivial

theorem classDeclaration : Fails (Grammar.classDeclaration g) cs := by
  refine (Fails.bind_after (h.annotations g) fun _ _ => ?_).spanned.bind
  exact Fails.bind_after h.modifiers fun _ _ =>
    (h.word (w := "class") (by decide)).bind

theorem method (htype : Untyped g cs) : Fails (Grammar.method g) cs := by
  refine (Fails.bind_after (h.annotations g) fun _ _ => ?_).spanned.bind
  refine Fails.bind_after h.modifiers fun _ _ => ?_
  have hdef : Fails (Grammar.keyword "def") cs := h.word (by decide)
  rcases htype with hfail | ⟨rest, hreads, hname⟩
  · exact (Fails.orElse hdef.bind hfail).bind
  · exact Fails.bind_after (hreads.orElse_right hdef.bind) fun _ _ => hname.bind

theorem declaration (htype : Untyped g cs) : Fails (Grammar.declaration g) cs := by
  have hfinal : Fails (Grammar.keyword "final") cs := h.word (by decide)
  have hdef : Fails (Grammar.keyword "def") cs := h.word (by decide)
  refine (Fails.bind_after (Reads.optional_none hfinal) fun _ _ => ?_).spanned.bind
  rcases htype with hfail | ⟨rest, hreads, hname⟩
  · exact (Fails.orElse hdef.bind hfail.map).bind
  · have htype : Reads (some <$> typeName g) cs rest fun _ => True := hreads.map fun _ _ => trivial
    exact Fails.bind_after (htype.orElse_right hdef.bind) fun _ _ => hname.spanned.bind

/-- The alternatives before `return`. -/
theorem beforeReturning :
    Fails (branch g) cs ∧
    ∀ r ∈ [whileLoop g, doWhile g, forEach g, countingLoop g, tryCatch g, switch g,
      do Grammar.keyword "break"; pure .breakLoop,
      do Grammar.keyword "continue"; pure .continueLoop,
      synchronized g, throwing g], Fails r cs := by
  -- each of them starts with a keyword of its own
  refine ⟨(h.word (by decide)).bind, ?_⟩
  simp only [List.forall_mem_cons, List.not_mem_nil, false_implies, implies_true, and_true]
  exact ⟨(h.word (by decide)).bind, (h.word (by decide)).bind, (h.word (by decide)).bind,
    (h.word (by decide)).bind, (h.word (by decide)).bind, (h.word (by decide)).bind,
    (h.word (by decide)).bind, (h.word (by decide)).bind, (h.word (by decide)).bind,
    (h.word (by decide)).bind⟩

end Undeclared

/-- A name starts neither an annotation nor a block, and is no keyword. -/
theorem undeclared_name (x : Name) {cs : List Char}
    (hend : ∀ d ∈ cs.head?, isNamePart d = false) : Undeclared (x.chars ++ cs) := by
  have hmark {w : List Char} (hw : w.head?.any (fun c => !isNameStart c) = true) :
      ¬ w <+: x.chars ++ cs := by
    refine not_starts_of_head hw ?_
    rintro c ⟨⟩
    rw [x.start, Bool.not_true]
  exact ⟨Fails.symbol (solid_name x _) (hmark (by decide)),
    Fails.symbol (solid_name x _) (hmark (by decide)), fun w hw _ => keyword_name x hw hend⟩

/-- The text starts with no declaration and no statement, unless that starts with `return`. -/
structure OnlyReturn (cs : List Char) : Prop where
  annotation : Fails (symbol "@") cs
  block : Fails (symbol "\x7b") cs
  name : Fails identifier cs
  keyword : ∀ w ∈ keywords, w ≠ "return" → Fails (keyword w) cs

namespace OnlyReturn

variable {cs : List Char} (h : OnlyReturn cs)
include h

theorem undeclared : Undeclared cs := ⟨h.annotation, h.block, h.keyword⟩

theorem typeName : Fails (Grammar.typeName g) cs := h.name.bind.bind

end OnlyReturn

theorem symbol_end {s : String} (hs : s.toList ≠ []) : Fails (symbol s) [] :=
  Fails.symbol Solid.nil fun h => hs (List.prefix_nil.mp h)

theorem keyword_end (w : String) : Fails (keyword w) [] := Fails.keyword Solid.nil (by simp)

theorem onlyReturn_end : OnlyReturn [] where
  annotation := symbol_end (by decide)
  block := symbol_end (by decide)
  name := Fails.identifier Solid.nil (by simp)
  keyword := fun w _ _ => keyword_end w

theorem barren_end : Barren [] := by simp [Barren]

section NoItem

variable {g} {cs : List Char}

/-- No item starts where no declaration, no keyword, no expression and no `;` does. -/
theorem item_fails (h : Undeclared cs) (hreturn : Fails (keyword "return") cs)
    (htype : Untyped g cs) (hexpression : Fails (expression g) cs)
    (hsemicolon : Fails (symbol ";") cs) : Fails (item g) cs := by
  have hnode : Fails (statementNode g) cs := by
    obtain ⟨hbranch, hbefore⟩ := h.beforeReturning g
    refine Fails.firstOf hbranch (List.forall_mem_append.mpr ⟨hbefore, ?_⟩)
    simp only [List.forall_mem_cons, List.not_mem_nil, false_implies, implies_true, and_true]
    exact ⟨hreturn.bind, (h.word (by decide)).bind, (h.declaration g htype).map, hexpression.map⟩
  refine Fails.orElse (Fails.orElse (h.classDeclaration g).map (h.method g htype).map)
    (Fails.map (Fails.orElse (Fails.orElse ?_ ?_) ?_))
  · exact h.block.bind.spanned.bind
  · exact hnode.spanned.bind
  · exact hsemicolon.spanned.bind

variable (g) in
/-- Nothing can be read at the end. -/
theorem item_end : Fails (item g) [] :=
  item_fails onlyReturn_end.undeclared (keyword_end "return")
    (.inl (onlyReturn_end.typeName g)) (barren_end.expression g) (symbol_end (by decide))

end NoItem

/-! ### Items -/

section Items

variable {g} {cs : List Char} {holds : List Item → Prop}

/-- A script is what its items are, if they reach the end. -/
theorem script_of_items (hcs : Solid cs) (hitems : Repeats (item g) cs [] holds) :
    Reads (script g) cs [] fun s => ∃ items, s = scriptOf items ∧ holds items :=
  (Reads.blanks_none hcs).bind fun _ _ => hitems.many.bind fun items hholds =>
    Reads.endOfInput.bind fun _ _ => Reads.pure ⟨items, rfl, hholds⟩

/-- There is no script if the items stop before the end. -/
theorem script_fails {rest : List Char} (hcs : Solid cs) (hrest : rest ≠ [])
    (hitems : Repeats (item g) cs rest holds) : Fails (script g) cs := by
  obtain ⟨c, rest, rfl⟩ := List.exists_cons_of_ne_nil hrest
  exact Fails.bind_after (Reads.blanks_none hcs) fun _ _ =>
    Fails.bind_after hitems.many fun _ _ => (Fails.endOfInput c rest).bind

end Items

/-- A source is its script, read with a level of nesting for each of its characters. -/
theorem parse_of_script {cs : List Char} {holds : Script → Prop}
    (h : Reads (script (level (cs.length + 1))) cs [] holds) :
    ∃ s, Script.parse (String.ofList cs) = .ok s ∧ holds s := by
  obtain ⟨s, pos, alt, hparse, hs⟩ := h 0
  refine ⟨s, ?_, hs⟩
  simp only [Script.parse, String.toList_ofList, Cursor.start, hparse]

theorem parse_of_fails {cs : List Char} (h : Fails (script (level (cs.length + 1))) cs) :
    ∃ fault, Script.parse (String.ofList cs) = .error fault := by
  obtain ⟨fault, hparse⟩ := h 0
  refine ⟨fault, ?_⟩
  simp only [Script.parse, String.toList_ofList, Cursor.start, hparse]

section OneStatement

variable {g} {cs : List Char} {holds : StatementNode → Prop}

/-- What declares nothing and starts with no keyword is a statement if it is an expression. -/
theorem statementNode_of_expression {rest : List Char} {value : Expression → Prop}
    (h : Undeclared cs) (hreturn : Fails (keyword "return") cs) (htype : Untyped g cs)
    (hexpression : Reads (expression g) cs rest value) :
    Reads (statementNode g) cs rest fun node => ∃ e, node = .expression e ∧ value e := by
  obtain ⟨hbranch, hbefore⟩ := h.beforeReturning g
  have hmore : ∀ r ∈ [returning g, assertion g, StatementNode.expression <$> declaration g],
      Fails r cs := by
    simp only [List.forall_mem_cons, List.not_mem_nil, false_implies, implies_true, and_true]
    exact ⟨hreturn.bind, (h.word (by decide)).bind, (h.declaration _ htype).map⟩
  exact Reads.firstOf_tail hbranch (List.forall_mem_append.mpr ⟨hbefore, hmore⟩)
    (hexpression.map fun e he => ⟨e, rfl, he⟩) []

/-- What is neither a class nor a method nor a block is read as a simple statement. -/
theorem item_of_noMethod {rest : List Char} (h : Undeclared cs) (hmethod : Fails (method g) cs)
    (hnode : Reads (statementNode g) cs rest holds) (hend : Fails (symbol ";") rest) :
    Reads (item g) cs rest fun i => ∃ node span, i = .statement ⟨node, span⟩ ∧ holds node := by
  have hsemicolon : Reads (optionalSymbol ";") rest rest fun _ => True :=
    (Reads.optional_none hend).bind fun _ _ => Reads.pure trivial
  have hstatement : Reads (simpleStatement g) cs rest fun s => holds s.node :=
    hnode.spanned.bind fun _ hx => hsemicolon.bind fun _ _ => Reads.pure hx
  refine Reads.orElse_right (Fails.orElse (h.classDeclaration g).map hmethod.map) ?_
  exact (Reads.orElse_left (Reads.orElse_right h.block.bind.spanned.bind hstatement)).map
    fun ⟨node, span⟩ hs => ⟨node, span, rfl, hs⟩

/-- What declares nothing and is no block is read as a simple statement. -/
theorem item_of_node {rest : List Char} (h : Undeclared cs) (htype : Untyped g cs)
    (hnode : Reads (statementNode g) cs rest holds) (hend : Fails (symbol ";") rest) :
    Reads (item g) cs rest fun i => ∃ node span, i = .statement ⟨node, span⟩ ∧ holds node :=
  item_of_noMethod h (h.method g htype) hnode hend

/-- A script of one statement. -/
theorem script_of_item (hsolid : Solid cs) (hne : cs ≠ [])
    (hitem : Reads (item g) cs [] fun i =>
      ∃ node span, i = .statement ⟨node, span⟩ ∧ holds node) :
    Reads (script g) cs [] fun script =>
      ∃ node span, script = ⟨[⟨node, span⟩], [], []⟩ ∧ holds node := by
  have hone : Repeats (item g) cs [] fun items =>
      ∃ node span, items = [.statement ⟨node, span⟩] ∧ holds node := by
    refine Repeats.round hitem (List.length_pos_iff.mpr hne) (Repeats.stop (item_end g) rfl) ?_
    rintro _ _ ⟨node, span, rfl, hnode⟩ rfl
    exact ⟨node, span, rfl, hnode⟩
  refine (script_of_items hsolid hone).mono ?_
  rintro _ ⟨_, rfl, node, span, rfl, hnode⟩
  exact ⟨node, span, rfl, hnode⟩

/-- A script of one simple statement. -/
theorem script_of_node (hsolid : Solid cs) (hne : cs ≠ []) (h : Undeclared cs)
    (htype : Untyped g cs) (hnode : Reads (statementNode g) cs [] holds) :
    Reads (script g) cs [] fun script =>
      ∃ node span, script = ⟨[⟨node, span⟩], [], []⟩ ∧ holds node :=
  script_of_item hsolid hne (item_of_node h htype hnode (symbol_end (by decide)))

end OneStatement

/-! ### Behind the word `return` -/

/-- A text behind the word `return`. -/
def afterReturn (gap : Gap) (cs : List Char) : List Char :=
  "return".toList ++ (gap.chars ++ cs)

section AfterReturn

variable (gap : Gap) (cs : List Char)

theorem solid_afterReturn : Solid (afterReturn gap cs) := Solid.word (c := 'r') (by decide)

theorem word_afterReturn :
    Reads word (afterReturn gap cs) (gap.chars ++ cs) (· = "return") :=
  Reads.word (c := 'r') (w := ['e', 't', 'u', 'r', 'n']) (by decide)
    (List.all_eq_true.mp (by decide))
    (isNamePart_eq_false_at_gap gap _)

theorem onlyReturn_afterReturn : OnlyReturn (afterReturn gap cs) where
  annotation := Fails.symbol (solid_afterReturn gap cs)
    (not_starts_of_head (f := (· == '@')) (by decide) (by rintro d ⟨⟩; decide))
  block := Fails.symbol (solid_afterReturn gap cs)
    (not_starts_of_head (f := (· == '\x7b')) (by decide) (by rintro d ⟨⟩; decide))
  name := Fails.identifier_keyword (solid_afterReturn gap cs) (word_afterReturn gap cs)
    (by decide)
  keyword := fun _ _ hne => Fails.keyword_other (solid_afterReturn gap cs)
    (word_afterReturn gap cs) (Ne.symm hne)

variable {cs} {n : Nat} {holds : Expression → Prop}

theorem statementNode_afterReturn (hcs : Solid cs)
    (hvalue : Reads (expression (level n)) cs [] holds) :
    Reads (statementNode (level n)) (afterReturn gap cs) [] fun node =>
      ∃ e, node = .ret e ∧ holds e := by
  have honly := onlyReturn_afterReturn gap cs
  have hreturning : Reads (returning (level n)) (afterReturn gap cs) [] fun node =>
      ∃ e, node = .ret e ∧ holds e := by
    have hword := Reads.keyword (solid_afterReturn gap cs) (word_afterReturn gap cs)
      gap.blank hcs
    have hsome : Reads (optional (expression (level n))) cs [] fun value =>
        ∃ e, value = some e ∧ holds e := hvalue.optional fun e he => ⟨e, rfl, he⟩
    refine hword.bind fun _ _ => hsome.bind ?_
    rintro value ⟨e, rfl, he⟩
    exact Reads.pure ⟨e, rfl, he⟩
  -- nothing before `return` in the order of the alternatives can be read
  obtain ⟨hbranch, hbefore⟩ := honly.undeclared.beforeReturning (level n)
  exact Reads.firstOf_tail hbranch hbefore hreturning
    [assertion (level n), StatementNode.expression <$> declaration (level n),
      StatementNode.expression <$> expression (level n)]

/-- An expression behind the word `return` is a script of one statement. -/
theorem script_afterReturn (hcs : Solid cs)
    (hvalue : Reads (expression (level n)) cs [] holds) :
    Reads (script (level n)) (afterReturn gap cs) [] fun script =>
      ∃ e span, script = ⟨[⟨.ret e, span⟩], [], []⟩ ∧ holds e := by
  have honly := onlyReturn_afterReturn gap cs
  refine (script_of_node (solid_afterReturn gap cs) (List.cons_ne_nil _ _) honly.undeclared
    (.inl (honly.typeName (level n))) (statementNode_afterReturn gap hcs hvalue)).mono ?_
  rintro script ⟨_, span, rfl, e, rfl, he⟩
  exact ⟨e, span, rfl, he⟩

/-- The same for a whole source, which has a level of nesting for each of its characters. -/
theorem parse_afterReturn (hcs : Solid cs)
    (hvalue : Reads (expression (level ((afterReturn gap cs).length + 1))) cs [] holds) :
    ∃ e span, Script.parse (String.ofList (afterReturn gap cs)) =
      .ok ⟨[⟨.ret e, span⟩], [], []⟩ ∧ holds e := by
  obtain ⟨_, hparse, e, span, rfl, he⟩ := parse_of_script (script_afterReturn gap hcs hvalue)
  exact ⟨e, span, hparse, he⟩

end AfterReturn

/-- A chain behind the word `return`. -/
def returnText (gap : Gap) (x : Name) (links : List Link) : List Char :=
  "return".toList ++ (gap.chars ++ chainText x links)

section Return

variable (gap : Gap) (x : Name) (links : List Link)

theorem script_returnText {n : Nat} (hlen : links.length ≤ n) :
    Reads (script (level n)) (returnText gap x links) [] fun script =>
      ∃ e span, script = ⟨[⟨.ret e, span⟩], [], []⟩ ∧ (chainTree x links).Spells e :=
  script_afterReturn gap (solid_chainText x links) (expression_chainText n x links hlen)

/-- A script `return x₀ op₁ x₁ ... opₙ xₙ`, with blanks in every gap, is one statement that
returns the tree of precedence climbing. -/
theorem parse_return_chain :
    ∃ e span, Script.parse (String.ofList (returnText gap x links)) =
      .ok ⟨[⟨.ret e, span⟩], [], []⟩ ∧ (chainTree x links).Spells e := by
  -- every link is written with some characters, so the nesting allowed covers the chain
  have hlen : links.length ≤ (returnText gap x links).length + 1 := by
    have := length_le_length_linksText links
    show links.length ≤ ("return".toList ++ (gap.chars ++ chainText x links)).length + 1
    rw [chainText_eq]
    simp only [List.length_append]
    omega
  obtain ⟨script, pos, alt, hparse, e, span, rfl, he⟩ := script_returnText gap x links hlen 0
  refine ⟨e, span, ?_, he⟩
  simp only [Script.parse, String.toList_ofList, Cursor.start, hparse]

end Return

end ScriptOutline.Grammar
