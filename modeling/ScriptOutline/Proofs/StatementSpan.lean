/-
ScriptOutline/Proofs/StatementSpan.lean

The spans of statements.  A rule for a statement reads a node, and the node takes up all that
was read (`StatementNode.Stands`); what may be missing in it is a placeholder, or stands where
it was read.  Statements without braces, after `case` and `default`, are a block that spans
the next character if there are none (`places_caseBody`), and it is the closing brace of the
switch that is there to be spanned.

With these rules every level of the grammar is sound (`level_sound`).
-/
import ScriptOutline.Proofs.Span

namespace ScriptOutline.Grammar

open ScriptOutline.Grammar.Parser

variable {size : Nat} {g : Inner}

/-! ### Blocks and placeholders -/

theorem places_block {statement : Parser Statement}
    (h : Places size statement Statement.Stands) :
    Places size (block statement) Statement.Stands := fun start => by
  have hstatements := Places.between (widens_all widens_statement) (advances_symbol "\x7b" rfl)
    (advances_symbol "\x7d" rfl) (Places.many widens_statement h)
  exact Leads.spanned_bind ((hstatements start).mono fun statements _ _ _ ⟨hlt, hs⟩ =>
    ⟨hlt, Leads.pure (blockOf_stands hlt hs)⟩)

/-- A statement with the node takes up all of a stretch. -/
abbrev StatementNode.Stands (start : Nat) (node : StatementNode) (stop : Nat) : Prop :=
  Statement.Stands start ⟨node, ⟨start, stop⟩⟩ stop

/-- The parts of a statement without clauses are missing or stand inside it. -/
theorem StatementNode.Stands.intro {start stop : Nat} {node : StatementNode} (hlt : start < stop)
    (hcases : ∀ c, Part.caseClause c ∉ node.children)
    (h : ∀ q ∈ node.children, Part.Lacks (.statement ⟨node, ⟨start, stop⟩⟩) q ∨
      q.Stands start stop) : StatementNode.Stands start node stop := by
  refine Part.Stands.intro (Nat.le_refl _) hlt (Nat.le_refl _) fun q hq => ?_
  have hroom : Part.room (.statement ⟨node, ⟨start, stop⟩⟩) q = ⟨start, stop⟩ := by
    cases q with
    | caseClause c => exact absurd hq (hcases c)
    | _ => rfl
  rw [hroom]
  exact h q hq

theorem StatementNode.Stands.of_children {start stop : Nat} {node : StatementNode}
    (hlt : start < stop) (hcases : ∀ c, Part.caseClause c ∉ node.children)
    (h : AllStand start node.children stop) : StatementNode.Stands start node stop :=
  .intro hlt hcases fun q hq => .inr (h q hq)

theorem places_brackets (h : g.Sound size) : Places size (inBrackets g) Expression.Stands :=
  places_inBrackets h (advances_symbol "(" rfl) (advances_symbol ")" rfl)

/-- A value behind `=`. -/
theorem places_assigned (h : g.Sound size) :
    Places size (do symbol "="; expression g) Expression.Stands :=
  ((advances_symbol "=" rfl).before widens_expression (places_expression h)).mono
    fun _ _ _ _ _ he => he.2

theorem places_declaration (h : g.Sound size) :
    Places size (declaration g) Expression.Stands := by
  intro start
  have htype : Advances size (orElse (do keyword "def"; pure none) (some <$> typeName g)) :=
    ((advances_keyword "def").then fun _ => Places.pure_forward _).orElse
      ((advances_typeName h).map _)
  refine Leads.spanned_bind ?_
  refine (Places.optional (advances_keyword "final") start).bind fun _ p₁ hle₁ _ => ?_
  refine (htype p₁).bind fun type p₂ hle₂ hlt => ?_
  refine (advances_identifier.spanned p₂).bind ?_
  rintro ⟨name, span⟩ p₃ hle₃ ⟨hlt', rfl : span = ⟨p₂, p₃⟩⟩
  refine (Places.optional (places_assigned h) p₃).bind fun value stop hle₄ hvalue => ?_
  have hlt : start < stop := by omega
  refine Leads.pure ⟨hlt, Leads.pure ?_⟩
  refine Part.Stands.intro (Nat.le_refl _) hlt (Nat.le_refl _)
    (List.forall_mem_cons.mpr ⟨?_, List.forall_mem_singleton.mpr ?_⟩)
  · exact .inr (Expression.Stands.of_inner (hle₁.trans hle₂) hlt' hle₄ .nil)
  · cases value with
    | none => exact .inl .declaredValue
    | some value =>
      exact .inr ((hvalue value rfl).widen (hle₁.trans (hle₂.trans hle₃)) (Nat.le_refl _))

/-! ### Branches and loops -/

theorem places_branch (h : g.Sound size) : Places size (branch g) StatementNode.Stands := by
  intro start
  have helse : Places size (do keyword "else"; g.statement) Statement.Stands :=
    ((advances_keyword "else").before widens_statement h.statement).mono fun _ _ _ _ _ hs => hs.2
  refine (advances_keyword "if" start).bind fun _ p₁ hle₁ _ => ?_
  refine (places_brackets h p₁).bind fun condition p₂ hle₂ hc => ?_
  refine (h.statement p₂).bind fun whenTrue p₃ hle₃ ht => ?_
  refine (Places.optional helse p₃).bind fun whenFalse stop hle₄ hf => Leads.pure ?_
  have hlt : start < stop := hle₁.trans_lt (hc.lt.trans_le (hle₃.trans hle₄))
  refine .intro hlt (by simp [StatementNode.children]) ?_
  simp only [StatementNode.children, List.forall_mem_cons]
  refine ⟨.inr (hc.asCondition.widen hle₁ (by omega)), .inr (ht.widen (by omega) hle₄), ?_, by simp⟩
  cases whenFalse with
  | none => exact .inl .elseBranch
  | some whenFalse => exact .inr ((hf whenFalse rfl).widen (by omega) (Nat.le_refl _))

theorem places_whileLoop (h : g.Sound size) : Places size (whileLoop g) StatementNode.Stands := by
  intro start
  refine (advances_keyword "while" start).bind fun _ p₁ hle₁ _ => ?_
  refine (places_brackets h p₁).bind fun condition p₂ hle₂ hc => ?_
  refine (h.statement p₂).bind fun body stop hle₃ hb => Leads.pure ?_
  refine .of_children (hle₁.trans_lt (hc.lt.trans_le hle₃)) (by simp [StatementNode.children]) ?_
  exact .cons (hc.asCondition.widen hle₁ hle₃) (.cons (hb.widen (by omega) (Nat.le_refl _)) .nil)

theorem places_doWhile (h : g.Sound size) : Places size (doWhile g) StatementNode.Stands := by
  intro start
  refine (advances_keyword "do" start).bind fun _ p₁ hle₁ _ => ?_
  refine (h.statement p₁).bind fun body p₂ hle₂ hb => ?_
  refine (advances_keyword "while" p₂).bind fun _ p₃ hle₃ _ => ?_
  refine (places_brackets h p₃).bind fun condition stop hle₄ hc => Leads.pure ?_
  have hlt : start < stop := hle₁.trans_lt (hb.lt.trans_le (hle₃.trans hle₄))
  refine .of_children hlt (by simp [StatementNode.children]) ?_
  exact .cons (hb.widen hle₁ (hle₃.trans hle₄))
    (.cons (hc.asCondition.widen (by omega) (Nat.le_refl _)) .nil)

theorem places_forEach (h : g.Sound size) : Places size (forEach g) StatementNode.Stands := by
  intro start
  have hhead : Places size (do
      let binding ← typedName g
      orElse (keyword "in") (symbol ":")
      let collection ← expression g
      pure (binding, collection)) fun start x stop => x.2.Stands start stop := fun start =>
    (advances_typedName h start).bind fun _ p₁ hle₁ _ =>
      ((advances_keyword "in").orElse (advances_symbol ":" rfl) p₁).bind fun _ p₂ hle₂ _ =>
        (places_expression h p₂).bind fun _ _ _ hcollection =>
          Leads.pure (hcollection.widen (hle₁.trans hle₂) (Nat.le_refl _))
  have hwide : Widens fun start (x : Binding × Expression) stop => x.2.Stands start stop :=
    fun _ _ _ _ _ hstart hstop hx => hx.widen hstart hstop
  refine (advances_keyword "for" start).bind fun _ p₁ hle₁ _ => ?_
  refine (Places.between hwide (advances_symbol "(" rfl) (advances_symbol ")" rfl) hhead p₁).bind ?_
  rintro ⟨binding, collection⟩ p₂ hle₂ ⟨hlt, hc⟩
  refine (h.statement p₂).bind fun body stop hle₃ hb => Leads.pure ?_
  refine .of_children (by omega) (by simp [StatementNode.children]) ?_
  exact .cons (hc.widen hle₁ hle₃) (.cons (hb.widen (hle₁.trans hle₂) (Nat.le_refl _)) .nil)

theorem places_clauses (h : g.Sound size) : Places size (clauses g) Expression.Stands := by
  intro start
  have hexpression := places_expression h
  have hfirst : Places size (orElse (declaration g) (expression g)) Expression.Stands :=
    (places_declaration h).orElse hexpression
  refine Leads.spanned_bind ?_
  refine (Places.optional hfirst start).bind fun first p₁ hle₁ hf => ?_
  refine ((advances_symbol ";" rfl) p₁).bind fun _ p₂ hle₂ hlt => ?_
  refine (Places.optional hexpression p₂).bind fun condition p₃ hle₃ hc => ?_
  refine ((advances_symbol ";" rfl) p₃).bind fun _ p₄ hle₄ _ => ?_
  refine (Places.optional hexpression p₄).bind fun step stop hle₅ hs => ?_
  have hlt : start < stop := by omega
  have hparts : ∀ part ∈ [first, condition, step], ∀ e ∈ part, e.Stands start stop := by
    simp only [List.forall_mem_cons]
    refine ⟨fun e he => ?_, fun e he => ?_, fun e he => ?_, by simp⟩
    · exact (hf e he).widen (Nat.le_refl _) (by omega)
    · exact (hc e he).widen (by omega) (by omega)
    · exact (hs e he).widen (by omega) (Nat.le_refl _)
  refine Leads.pure ⟨hlt, Leads.pure ?_⟩
  refine Part.Stands.intro (Nat.le_refl _) hlt (Nat.le_refl _) (List.forall_mem_map.mpr ?_)
  refine List.forall_mem_map.mpr fun part hpart => ?_
  cases part with
  | none => exact .inl .clause
  | some e => exact .inr (hparts _ hpart e rfl)

theorem places_countingLoop (h : g.Sound size) :
    Places size (countingLoop g) StatementNode.Stands := by
  intro start
  refine (advances_keyword "for" start).bind fun _ p₁ hle₁ _ => ?_
  refine (Places.between widens_expression (advances_symbol "(" rfl) (advances_symbol ")" rfl)
    (places_clauses h) p₁).bind fun parts p₂ hle₂ ⟨hlt, hp⟩ => ?_
  refine (h.statement p₂).bind fun body stop hle₃ hb => Leads.pure ?_
  refine .of_children (by omega) (by simp [StatementNode.children]) ?_
  exact .cons (hp.widen hle₁ hle₃) (.cons (hb.widen (hle₁.trans hle₂) (Nat.le_refl _)) .nil)

/-! ### Clauses -/

/-- The clause stands between two positions. -/
abbrev CatchClauseStands (start : Nat) (c : CatchClause) (stop : Nat) : Prop :=
  (Part.catchClause c).Stands start stop

theorem places_catchClause (h : g.Sound size) :
    Places size (catchClause g) CatchClauseStands := by
  intro start
  have hbinding : Advances size (catchBinding g) :=
    ((advances_classType h).then fun _ =>
      advances_identifier.forward.bind_forward fun _ => Places.pure_forward _).orElse
      (advances_identifier.then fun _ => Places.pure_forward _)
  refine Leads.spanned_bind ((advances_keyword "catch" start).bind fun _ p₁ hle₁ _ => ?_)
  have hbetween := Places.between widens_lt (advances_symbol "(" rfl) (advances_symbol ")" rfl)
    hbinding
  refine (hbetween p₁).bind fun binding p₂ hle₂ ⟨hlt, _⟩ => ?_
  refine (places_block h.statement p₂).bind fun code stop hle₃ hcode => ?_
  have hlt : start < stop := by omega
  refine Leads.pure ⟨hlt, Leads.pure ?_⟩
  refine Part.Stands.intro (Nat.le_refl _) hlt (Nat.le_refl _) (List.forall_mem_singleton.mpr ?_)
  exact .inr (hcode.widen (hle₁.trans hle₂) (Nat.le_refl _))

theorem places_tryCatch (h : g.Sound size) : Places size (tryCatch g) StatementNode.Stands := by
  intro start
  have hwide : Widens CatchClauseStands := fun _ _ _ _ _ hstart hstop hc => hc.widen hstart hstop
  have hfinally : Places size (do keyword "finally"; block g.statement) Statement.Stands :=
    ((advances_keyword "finally").before widens_statement (places_block h.statement)).mono
      fun _ _ _ _ _ hs => hs.2
  refine (advances_keyword "try" start).bind fun _ p₁ hle₁ _ => ?_
  refine (places_block h.statement p₁).bind fun body p₂ hle₂ hb => ?_
  refine (Places.many hwide (places_catchClause h) p₂).bind fun catches p₃ hle₃ hc => ?_
  refine (Places.optional hfinally p₃).bind fun finallyBlock stop hle₄ hf => Leads.pure ?_
  have hlt : start < stop := hle₁.trans_lt (hb.lt.trans_le (hle₃.trans hle₄))
  refine .intro hlt (by simp [StatementNode.children]) ?_
  simp only [StatementNode.children, List.cons_append, List.forall_mem_cons,
    List.forall_mem_append, List.forall_mem_map]
  refine ⟨.inr (hb.widen hle₁ (by omega)), fun c hmem => ?_, ?_, by simp⟩
  · exact .inr ((hc c hmem).widen (by omega) hle₄)
  · cases finallyBlock with
    | none => exact .inl .finallyBlock
    | some s => exact .inr ((hf s rfl).widen (by omega) (Nat.le_refl _))

/-- The statements of a case stand where they were read.  If there are none, the block that they
make spans the next character, so there has to be one. -/
theorem places_caseBody (h : g.Sound size) : Places size (caseBody g) fun start body stop =>
    start < size → body = blockOf [] ⟨stop, stop + 1⟩ ∨
      ∃ first others, body = blockOf (first :: others) ⟨start, stop⟩ ∧ body.Stands start stop := by
  intro start
  have hmany : Leads size (many g.statement) start fun ss pos =>
      Places.All Statement.Stands start ss pos ∧ (ss = [] → pos = start) := by
    refine Leads.many ⟨.nil, fun _ => rfl⟩ fun ss pos ⟨hss, _⟩ => ?_
    exact (hss.concat widens_statement h.statement).mono fun s _ _ _ hs =>
      ⟨hs, fun heq => absurd heq (by simp)⟩
  refine (Leads.spanned hmany).bind ?_
  rintro ⟨statements, span⟩ stop hle ⟨⟨⟨-, hss⟩, hnil⟩, hspan⟩
  refine Leads.pure fun hlt => ?_
  obtain rfl : span = ⟨start, max stop (start + 1)⟩ := hspan hlt
  cases statements with
  | nil =>
    obtain rfl := hnil rfl
    rw [Nat.max_eq_right (Nat.le_succ _)]
    exact .inl rfl
  | cons first others =>
    have hlt : start < stop := (hss first List.mem_cons_self).lt
    rw [Nat.max_eq_left hlt]
    exact .inr ⟨first, others, rfl, blockOf_stands hlt hss⟩

/-- The clause stands between two positions, if there is a character behind it. -/
def CaseClauseStands (size start : Nat) (c : CaseClause) (stop : Nat) : Prop :=
  stop < size → (Part.caseClause c).Stands start stop

theorem places_caseClause (h : g.Sound size) :
    Places size (caseClause g) (CaseClauseStands size) := by
  intro start
  refine Leads.spanned_bind ((advances_keyword "case" start).bind fun _ p₁ hle₁ _ => ?_)
  refine (places_expression h p₁).bind fun subject p₂ hle₂ hsubject => ?_
  refine ((advances_symbol ":" rfl) p₂).bind fun _ p₃ hle₃ _ => ?_
  refine (places_caseBody h p₃).bind fun body stop hle₄ hbody => ?_
  have hlt : start < stop := hle₁.trans_lt (hsubject.lt.trans_le (hle₃.trans hle₄))
  refine Leads.pure ⟨hlt, Leads.pure fun hsize => ?_⟩
  refine Part.Stands.intro (Nat.le_refl _) hlt (Nat.le_refl _)
    (List.forall_mem_cons.mpr ⟨?_, List.forall_mem_singleton.mpr ?_⟩)
  · exact .inr (hsubject.widen hle₁ (hle₃.trans hle₄))
  · rcases hbody (hle₄.trans_lt hsize) with rfl | ⟨first, others, rfl, hbody⟩
    · exact .inr (blockOf_stands (Nat.lt_succ_self _) (by simp))
    · exact .inr (hbody.widen (hle₁.trans (hle₂.trans hle₃)) (Nat.le_refl _))

/-- The statements of the default clause may span the character behind it. -/
theorem places_defaultClause (h : g.Sound size) : Places size (defaultClause g)
    fun start body stop => stop < size → body.Stands start (stop + 1) := by
  intro start
  refine (advances_keyword "default" start).bind fun _ p₁ hle₁ _ => ?_
  refine ((advances_symbol ":" rfl) p₁).bind fun _ p₂ hle₂ _ => ?_
  refine (places_caseBody h p₂).mono fun body stop hle₃ _ hbody hsize => ?_
  rcases hbody (hle₃.trans_lt hsize) with rfl | ⟨first, others, rfl, hbody⟩
  · exact (blockOf_stands (Nat.lt_succ_self _) (by simp)).widen (by omega) (Nat.le_refl _)
  · exact hbody.widen (hle₁.trans hle₂) (Nat.le_succ _)

theorem places_switch (h : g.Sound size) : Places size (switch g) StatementNode.Stands := by
  intro start
  have hwide : Widens (CaseClauseStands size) := fun _ _ _ _ _ hstart hstop hc hsize =>
    (hc (hstop.trans_lt hsize)).widen hstart hstop
  refine (advances_keyword "switch" start).bind fun _ p₁ hle₁ _ => ?_
  refine (places_brackets h p₁).bind fun subject p₂ hle₂ hsubject => ?_
  have hclauses : Places size (do
        let cases ← many (caseClause g)
        let defaultBlock ← optional (defaultClause g)
        pure (cases, defaultBlock)) fun start x stop => stop < size →
      (∀ c ∈ x.1, (Part.caseClause c).Stands start stop) ∧
      ∀ s ∈ x.2, s.Stands start (stop + 1) := fun start => by
    refine (Places.many hwide (places_caseClause h) start).bind fun cases p₁ hle₁ hcases => ?_
    refine (Places.optional (places_defaultClause h) p₁).bind fun defaultBlock stop hle₂ hd => ?_
    refine Leads.pure fun hsize => ⟨fun c hc => ?_, fun s hs => ?_⟩
    · exact (hcases c hc (hle₂.trans_lt hsize)).widen (Nat.le_refl _) hle₂
    · exact (hd s hs hsize).widen hle₁ (Nat.le_refl _)
  -- The closing brace is the character that the last clause may need behind it.
  have hbraces : Leads size (between "\x7b" (do
        let cases ← many (caseClause g)
        let defaultBlock ← optional (defaultClause g)
        pure (cases, defaultBlock)) "\x7d") p₂ fun x stop => p₂ < stop ∧
      (∀ c ∈ x.1, (Part.caseClause c).Stands p₂ (stop - 1)) ∧
      ∀ s ∈ x.2, s.Stands p₂ stop := by
    refine ((advances_symbol "\x7b" rfl) p₂).bind fun _ p₃ hle₃ hlt => ?_
    refine (hclauses p₃).bind fun x p₄ hle₄ hx => ?_
    have hclosing : Leads size (symbol "\x7d") p₄ fun _ stop => p₄ < stop ∧ stop ≤ size :=
      ((advances_symbol "\x7d" rfl) p₄).mono fun _ _ _ hsize hlt => ⟨hlt, hsize⟩
    refine hclosing.bind fun _ stop _ ⟨hlt', hsize⟩ => Leads.pure ?_
    obtain ⟨hcases, hdefault⟩ := hx (hlt'.trans_le hsize)
    refine ⟨by omega, fun c hc => ?_, fun s hs => ?_⟩
    · exact (hcases c hc).widen hle₃ (by omega)
    · exact (hdefault s hs).widen hle₃ hlt'
  refine hbraces.bind ?_
  rintro ⟨cases, defaultBlock⟩ stop hle₃ ⟨hlt, hcases, hdefault⟩
  refine Leads.pure ?_
  have hlt : start < stop := by omega
  refine Part.Stands.intro (Nat.le_refl _) hlt (Nat.le_refl _) ?_
  simp only [Part.inner, Part.children, StatementNode.children, List.cons_append,
    List.forall_mem_cons, List.forall_mem_append, List.forall_mem_map]
  refine ⟨.inr (hsubject.widen hle₁ hle₃), fun c hc => ?_, ?_, by simp⟩
  · exact .inr ((hcases c hc).widen (hle₁.trans hle₂) (Nat.le_refl _))
  · cases defaultBlock with
    | none => exact .inl .defaultBlock
    | some s => exact .inr ((hdefault s rfl).widen (hle₁.trans hle₂) (Nat.le_refl _))

theorem places_synchronized (h : g.Sound size) :
    Places size (synchronized g) StatementNode.Stands := by
  intro start
  refine (advances_keyword "synchronized" start).bind fun _ p₁ hle₁ _ => ?_
  refine (places_brackets h p₁).bind fun lock p₂ hle₂ hlock => ?_
  refine (places_block h.statement p₂).bind fun code stop hle₃ hcode => Leads.pure ?_
  refine .of_children (hle₁.trans_lt (hlock.lt.trans_le hle₃)) (by simp [StatementNode.children]) ?_
  exact .cons (hlock.widen hle₁ hle₃) (.cons (hcode.widen (hle₁.trans hle₂) (Nat.le_refl _)) .nil)

/-! ### Statements -/

theorem places_throwing (h : g.Sound size) : Places size (throwing g) StatementNode.Stands := by
  intro start
  refine (advances_keyword "throw" start).bind fun _ p₁ hle₁ _ => ?_
  refine (places_expression h p₁).bind fun value stop _ hvalue => Leads.pure ?_
  refine .of_children (hle₁.trans_lt hvalue.lt) (by simp [StatementNode.children]) ?_
  exact .cons (hvalue.widen hle₁ (Nat.le_refl _)) .nil

theorem places_returning (h : g.Sound size) : Places size (returning g) StatementNode.Stands := by
  intro start
  refine (advances_keyword "return" start).bind fun _ p₁ hle₁ hlt => ?_
  refine (Places.optional (places_expression h) p₁).bind fun value stop hle₂ hvalue => ?_
  refine Leads.pure (.intro (hlt.trans_le hle₂) (by simp [StatementNode.children]) ?_)
  refine List.forall_mem_singleton.mpr ?_
  cases value with
  | none => exact .inl .returnedValue
  | some value => exact .inr ((hvalue value rfl).widen hle₁ (Nat.le_refl _))

theorem places_assertion (h : g.Sound size) : Places size (assertion g) StatementNode.Stands := by
  intro start
  have hmessage : Places size (do orElse (symbol ":") (symbol ","); expression g)
      Expression.Stands :=
    (((advances_symbol ":" rfl).orElse (advances_symbol "," rfl)).before widens_expression
      (places_expression h)).mono fun _ _ _ _ _ he => he.2
  refine (advances_keyword "assert" start).bind fun _ p₁ hle₁ _ => ?_
  refine (places_expression h p₁).bind fun condition p₂ hle₂ hc => ?_
  refine (Places.optional hmessage p₂).bind fun message stop hle₃ hm => Leads.pure ?_
  refine .intro (hle₁.trans_lt (hc.lt.trans_le hle₃)) (by simp [StatementNode.children])
    (List.forall_mem_cons.mpr ⟨?_, List.forall_mem_singleton.mpr ?_⟩)
  · exact .inr (hc.asCondition.widen hle₁ hle₃)
  · cases message with
    | none => exact .inl .message
    | some message => exact .inr ((hm message rfl).widen (hle₁.trans hle₂) (Nat.le_refl _))

/-- A statement node without parts stands where its word was read. -/
theorem places_word (word : String) {node : StatementNode} (hnode : node.children = []) :
    Places size (do keyword word; pure node) StatementNode.Stands := fun start =>
  (advances_keyword word start).bind fun _ _ _ hlt =>
    Leads.pure (.of_children hlt (by simp [hnode]) (by rw [hnode]; exact .nil))

theorem places_expressionStatement {p : Parser Expression}
    (hp : Places size p Expression.Stands) :
    Places size (StatementNode.expression <$> p) StatementNode.Stands :=
  Places.map (hp.mono fun _ _ _ _ _ he =>
    .of_children he.lt (by simp [StatementNode.children]) (.cons he .nil))

theorem places_statementNode (h : g.Sound size) :
    Places size (statementNode g) StatementNode.Stands :=
  (places_branch h).firstOf
    ⟨places_whileLoop h, places_doWhile h, places_forEach h, places_countingLoop h,
      places_tryCatch h, places_switch h, places_word "break" rfl, places_word "continue" rfl,
      places_synchronized h, places_throwing h, places_returning h, places_assertion h,
      places_expressionStatement (places_declaration h),
      places_expressionStatement (places_expression h)⟩

theorem places_optionalSymbol (s : String) (hs : s.isEmpty = false) :
    Places size (optionalSymbol s) fun _ _ _ => True :=
  (Places.optional (advances_symbol s hs)).forward.bind_forward fun _ => Places.pure_forward _

theorem places_statement (h : g.Sound size) :
    Places size (statement g) Statement.Stands := by
  refine ((places_block h.statement).orElse fun start => ?_).orElse fun start => ?_
  · refine Leads.spanned_bind ((places_statementNode h start).mono fun node stop _ _ hnode =>
      ⟨hnode.lt, ?_⟩)
    exact ((places_optionalSymbol ";" rfl) stop).bind fun _ _ hle _ =>
      Leads.pure (hnode.widen (Nat.le_refl _) hle)
  · refine Leads.spanned_bind (((advances_symbol ";" rfl) start).mono fun _ _ _ _ hlt =>
      ⟨hlt, Leads.pure ?_⟩)
    exact StatementNode.Stands.of_children hlt (by simp [StatementNode.children]) .nil

/-- At every level of nesting, code is in its place. -/
theorem level_sound (n : Nat) : (level n).Sound size := by
  induction n with
  | zero =>
    exact ⟨fun _ => Leads.fail, fun _ => Leads.fail, fun _ => Leads.fail, fun _ => Leads.fail⟩
  | succ n ih =>
    exact ⟨advances_classType ih, places_unary ih, places_expression ih, places_statement ih⟩

end ScriptOutline.Grammar
