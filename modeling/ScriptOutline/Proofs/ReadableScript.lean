/-
ScriptOutline/Proofs/ReadableScript.lean

Statements, declarations and scripts are readable.  A rule for a statement reads a node, of which
the parts are readable code and the variable, if there is one, has a name; what may be missing in
it is a placeholder, which is readable as well, and nothing else is missing.  A statement itself is
never read as missing, because a `;` spans a character (`yields_emptyStatement`).  Every level of
the grammar reads what is readable (`level_readable`), so the script that is read from a source is
(`Script.parse_readable`).
-/
import ScriptOutline.Proofs.Readable
import ScriptOutline.Proofs.ScriptSpan

namespace ScriptOutline

/-! ### Code -/

abbrev Part.IsCode (p : Part) : Prop := (Piece.code p).Readable .code

abbrev Expression.IsCode (e : Expression) : Prop := (Part.expression e).IsCode

abbrev Statement.IsCode (s : Statement) : Prop := (Part.statement s).IsCode

theorem Part.IsValue.isCode {p : Part} (h : p.IsValue) : p.IsCode := .part h

/-- All parts of a list are readable code. -/
def AllCode (ps : List Part) : Prop := ∀ p ∈ ps, p.IsCode

namespace AllCode

variable {p : Part} {ps qs : List Part}

theorem nil : AllCode [] := fun _ h => nomatch h

theorem cons (hp : p.IsCode) (hps : AllCode ps) : AllCode (p :: ps) :=
  List.forall_mem_cons.mpr ⟨hp, hps⟩

theorem append (hps : AllCode ps) (hqs : AllCode qs) : AllCode (ps ++ qs) :=
  List.forall_mem_append.mpr ⟨hps, hqs⟩

end AllCode

/-- Code that is no expression. -/
theorem Part.isCode_of_inner {p : Part} (hp : ∀ e, p ≠ .expression e) (hcomplete : p.Complete)
    (hnames : ∀ name ∈ p.names, IsName name) (h : AllCode p.inner) : p.IsCode := by
  refine .other (fun e he => ?_) (fun q hq => ?_) hnames (List.forall_mem_map.mpr h)
  · exact hp e (Piece.code.inj he)
  · exact Piece.code.inj hq ▸ hcomplete

/-- What the rules for statements read: parts that are readable code, of which none is missing
that must not be, and a name for a variable. -/
structure StatementNode.Readable (node : StatementNode) : Prop where
  code : AllCode node.children
  name : ∀ name ∈ node.names, IsName name
  complete : node.Complete
  ne_empty : node ≠ .empty

/-- Only a loop over a collection names a variable. -/
theorem StatementNode.Readable.unnamed {node : StatementNode} (hnone : node.names = [])
    (hne : node ≠ .empty) (hcomplete : node.Complete) (h : AllCode node.children) :
    node.Readable := by
  refine ⟨h, ?_, hcomplete, hne⟩
  rw [hnone]
  exact List.forall_mem_nil _

theorem StatementNode.Readable.isRead {node : StatementNode} (h : node.Readable) (span : Span) :
    Statement.IsRead ⟨node, span⟩ where
  code := Part.isCode_of_inner nofun h.complete h.name h.code
  present := by
    cases node
    case empty => exact absurd rfl h.ne_empty
    all_goals rfl

/-- A block that is read is no empty statement. -/
structure Statement.IsReadBlock (s : Statement) : Prop extends s.IsRead where
  ne_empty : s.isEmpty = false

theorem Statement.isCode_empty (span : Span) : Statement.IsCode ⟨.empty, span⟩ :=
  Part.isCode_of_inner nofun trivial (List.forall_mem_nil _) .nil

theorem Expression.IsValue.asCode {e : Expression} (h : e.IsValue) : e.asCondition.IsCode :=
  h.asCondition.isCode

/-- The piece is no placeholder. -/
def Piece.Present (p : Piece) : Prop := ∀ q, p = .code q → q.Present

/-- A piece that is no code. -/
theorem Piece.Readable.whole {p : Piece} (hp : ∀ q, p ≠ .code q)
    (hnames : ∀ name ∈ p.names, IsName name) (h : ∀ q ∈ p.inner, q.Readable .code) :
    p.Readable .code :=
  .other (fun e => hp (.expression e)) (fun q hq => absurd hq (hp q)) hnames h

end ScriptOutline

namespace ScriptOutline.Grammar

open ScriptOutline.Grammar.Parser

variable {g : Inner}

/-! ### Blocks and placeholders -/

theorem blockOf_isReadBlock {statements : List Statement} {span : Span}
    (h : ∀ s ∈ statements, s.IsRead) : (blockOf statements span).IsReadBlock where
  code := .part (.block (fun s hs => (h s hs).present) fun s hs => (h s hs).code)
  present := rfl
  ne_empty := rfl

theorem yields_block {statement : Parser Statement} (h : Yields statement Statement.IsRead) :
    Yields (block statement) Statement.IsReadBlock :=
  .spanned_bind (h.many.between.mono fun _ hs _ => .pure (blockOf_isReadBlock hs))

theorem orMissing_isCode {s : Option Statement} (h : ∀ x ∈ s, x.IsRead) :
    (orMissing s).IsCode := by
  cases s with
  | none => exact Statement.isCode_empty _
  | some s => exact (h s rfl).code

theorem orMissing_missingIfEmpty {s : Option Statement} (h : ∀ x ∈ s, x.isEmpty = false) :
    (orMissing s).MissingIfEmpty := by
  cases s with
  | none => exact fun _ => rfl
  | some s => exact fun hempty => absurd (hempty.symm.trans (h s rfl)) (by decide)

theorem orMissingExpression_isCode {e : Option Expression} (h : ∀ x ∈ e, x.IsCode) :
    (orMissingExpression e).IsCode := by
  cases e with
  | none => exact .missing
  | some e => exact h e rfl

theorem orNull_isCode {e : Option Expression} (h : ∀ x ∈ e, x.IsCode) : (orNull e).IsCode := by
  cases e with
  | none => exact .part (Expression.isValue_constant .null .unwritten)
  | some e => exact h e rfl

/-- Among the parts of a statement an expression need not be a value. -/
theorem yields_value (h : g.Readable) : Yields (expression g) Expression.IsCode :=
  (yields_expression h).mono fun _ he => he.isCode

/-- What is declared is the variable of the name that was read. -/
theorem yields_declaration (h : g.Readable) : Yields (declaration g) Expression.IsCode := by
  refine Yields.spanned_bind (.skip fun _ => .skip fun type => ?_)
  refine yields_identifier.spanned.bind fun ⟨name, nameSpan⟩ hname => ?_
  have hvalue : Yields (do symbol "="; expression g) Expression.IsCode :=
    .skip fun _ => yields_value h
  refine hvalue.optional.bind fun value hvalue => .pure fun span => .pure ?_
  exact .declaration hname (orMissingExpression_isCode hvalue)

/-! ### Branches and loops -/

theorem yields_branch (h : g.Readable) : Yields (branch g) StatementNode.Readable := by
  have helse : Yields (do keyword "else"; g.statement) Statement.IsRead :=
    .skip fun _ => h.statement
  refine .skip fun _ => h.expression.between.bind fun condition hc => ?_
  refine h.statement.bind fun whenTrue ht => helse.optional.bind fun whenFalse hf => ?_
  exact .pure (.unnamed rfl nofun ⟨rfl, ht.present⟩
    (.cons hc.asCode (.cons ht.code (.cons (orMissing_isCode hf) .nil))))

theorem yields_whileLoop (h : g.Readable) : Yields (whileLoop g) StatementNode.Readable :=
  .skip fun _ => h.expression.between.bind fun _ hc => h.statement.bind fun _ hb =>
    .pure (.unnamed rfl nofun trivial (.cons hc.asCode (.cons hb.code .nil)))

theorem yields_doWhile (h : g.Readable) : Yields (doWhile g) StatementNode.Readable :=
  .skip fun _ => h.statement.bind fun _ hb => .skip fun _ =>
    h.expression.between.bind fun _ hc =>
      .pure (.unnamed rfl nofun trivial (.cons hb.code (.cons hc.asCode .nil)))

theorem yields_forEach (h : g.Readable) : Yields (forEach g) StatementNode.Readable := by
  have hhead : Yields (do
      let binding ← typedName g
      orElse (keyword "in") (symbol ":")
      let collection ← expression g
      pure (binding, collection)) fun x => IsName x.1.name ∧ x.2.IsCode :=
    yields_typedName.bind fun _ hname => .skip fun _ =>
      (yields_value h).bind fun _ hc => .pure ⟨hname, hc⟩
  refine .skip fun _ => hhead.between.bind fun ⟨binding, collection⟩ ⟨hname, hc⟩ => ?_
  exact h.statement.bind fun _ hb =>
    .pure ⟨.cons hc (.cons hb.code .nil), List.forall_mem_singleton.mpr hname, trivial, nofun⟩

theorem yields_clauses (h : g.Readable) : Yields (clauses g) Expression.IsCode := by
  have hfirst := (yields_declaration h).orElse (yields_value h)
  refine Yields.spanned_bind (hfirst.optional.bind fun first hf => .skip fun _ => ?_)
  refine (yields_value h).optional.bind fun condition hc => .skip fun _ => ?_
  refine (yields_value h).optional.bind fun step hs => .pure fun span => .pure (.clauses ?_)
  simp only [List.map_cons, List.map_nil, List.forall_mem_cons]
  exact ⟨orMissingExpression_isCode hf, orMissingExpression_isCode hc,
    orMissingExpression_isCode hs, by simp⟩

theorem yields_countingLoop (h : g.Readable) : Yields (countingLoop g) StatementNode.Readable :=
  .skip fun _ => (yields_clauses h).between.bind fun _ hp => h.statement.bind fun _ hb =>
    .pure (.unnamed rfl nofun trivial (.cons hp (.cons hb.code .nil)))

/-! ### Clauses -/

theorem yields_catchBinding : Yields (catchBinding g) fun binding => IsName binding.name :=
  Yields.orElse (.skip fun _ => yields_identifier.bind fun _ hname => .pure hname)
    (yields_identifier.bind fun _ hname => .pure hname)

theorem yields_catchClause (h : g.Readable) :
    Yields (catchClause g) fun c => (Part.catchClause c).IsCode := by
  refine Yields.spanned_bind (.skip fun _ => yields_catchBinding.between.bind fun _ hname => ?_)
  refine (yields_block h.statement).bind fun _ hb => .pure fun _ => .pure ?_
  exact Part.isCode_of_inner nofun trivial (List.forall_mem_singleton.mpr hname)
    (List.forall_mem_singleton.mpr hb.code)

theorem yields_tryCatch (h : g.Readable) : Yields (tryCatch g) StatementNode.Readable := by
  have hfinally : Yields (do keyword "finally"; block g.statement) Statement.IsReadBlock :=
    .skip fun _ => yields_block h.statement
  refine .skip fun _ => (yields_block h.statement).bind fun body hb => ?_
  refine (yields_catchClause h).many.bind fun catches hc => ?_
  refine hfinally.optional.bind fun finallyBlock hf =>
    .pure (.unnamed rfl nofun ⟨hb.present, ?_⟩ ?_)
  · exact orMissing_missingIfEmpty fun s hs => (hf s hs).ne_empty
  · exact AllCode.append (.cons hb.code (List.forall_mem_map.mpr hc))
      (.cons (orMissing_isCode fun s hs => (hf s hs).toIsRead) .nil)

theorem yields_caseBody (h : g.Readable) : Yields (caseBody g) Statement.IsReadBlock :=
  .spanned_bind (h.statement.many.mono fun _ hs _ => .pure (blockOf_isReadBlock hs))

theorem yields_caseClause (h : g.Readable) :
    Yields (caseClause g) fun c => (Part.caseClause c).IsCode := by
  refine Yields.spanned_bind (.skip fun _ => (yields_value h).bind fun _ hs => .skip fun _ => ?_)
  refine (yields_caseBody h).bind fun _ hb => .pure fun _ => .pure ?_
  exact Part.isCode_of_inner nofun trivial (List.forall_mem_nil _) (.cons hs (.cons hb.code .nil))

theorem yields_switch (h : g.Readable) : Yields (switch g) StatementNode.Readable := by
  have hdefault : Yields (defaultClause g) Statement.IsReadBlock :=
    .skip fun _ => .skip fun _ => yields_caseBody h
  have hclauses : Yields (do
      let cases ← many (caseClause g)
      let defaultBlock ← optional (defaultClause g)
      pure (cases, defaultBlock))
      fun x => (∀ c ∈ x.1, (Part.caseClause c).IsCode) ∧ ∀ s ∈ x.2, s.IsReadBlock :=
    (yields_caseClause h).many.bind fun _ hc => hdefault.optional.bind fun _ hd => .pure ⟨hc, hd⟩
  refine .skip fun _ => h.expression.between.bind fun subject hs => ?_
  refine hclauses.between.bind fun ⟨cases, defaultBlock⟩ ⟨hc, hd⟩ =>
    .pure (.unnamed rfl nofun ⟨hs.present nofun rfl, ?_⟩ ?_)
  · exact orMissing_missingIfEmpty fun s hs => (hd s hs).ne_empty
  · exact AllCode.append (.cons hs.isCode (List.forall_mem_map.mpr hc))
      (.cons (orMissing_isCode fun s hs => (hd s hs).toIsRead) .nil)

theorem yields_synchronized (h : g.Readable) : Yields (synchronized g) StatementNode.Readable :=
  .skip fun _ => h.expression.between.bind fun _ hl => (yields_block h.statement).bind
    fun _ hc => .pure (.unnamed rfl nofun trivial (.cons hl.isCode (.cons hc.code .nil)))

/-! ### Simple statements -/

theorem yields_throwing (h : g.Readable) : Yields (throwing g) StatementNode.Readable :=
  .skip fun _ => (yields_value h).bind fun _ hv =>
    .pure (.unnamed rfl nofun trivial (.cons hv .nil))

theorem yields_returning (h : g.Readable) : Yields (returning g) StatementNode.Readable :=
  .skip fun _ => (yields_value h).optional.bind fun _ hv =>
    .pure (.unnamed rfl nofun trivial (.cons (orNull_isCode hv) .nil))

theorem yields_assertion (h : g.Readable) : Yields (assertion g) StatementNode.Readable := by
  have hmessage : Yields (do orElse (symbol ":") (symbol ","); expression g) Expression.IsCode :=
    .skip fun _ => yields_value h
  refine .skip fun _ => (yields_expression h).bind fun condition hc => ?_
  exact hmessage.optional.bind fun message hm =>
    .pure (.unnamed rfl nofun trivial (.cons hc.asCode (.cons (orNull_isCode hm) .nil)))

theorem yields_statementNode (h : g.Readable) :
    Yields (statementNode g) StatementNode.Readable := by
  have hexpression {e : Expression} (he : e.IsCode) : (StatementNode.expression e).Readable :=
    .unnamed rfl nofun trivial (.cons he .nil)
  exact (yields_branch h).firstOf
    ⟨yields_whileLoop h, yields_doWhile h, yields_forEach h, yields_countingLoop h,
      yields_tryCatch h, yields_switch h, .skip fun _ => .pure (.unnamed rfl nofun trivial .nil),
      .skip fun _ => .pure (.unnamed rfl nofun trivial .nil), yields_synchronized h,
      yields_throwing h, yields_returning h, yields_assertion h,
      .map ((yields_declaration h).mono fun _ he => hexpression he),
      .map ((yields_value h).mono fun _ he => hexpression he)⟩

/-- What takes at least one character spans one. -/
theorem yields_spanned {p : Parser Unit} (hp : ∀ size, Advances size p) :
    Yields (spanned p) fun x => x.2.isEmpty = false := by
  intro ⟨start, rest⟩ ⟨value, span⟩ c alt h
  obtain ⟨-, -, hlt, hspan⟩ := (hp (start + rest.length)).spanned start rest rfl _ c alt h
  obtain rfl : span = ⟨start, c.pos⟩ := hspan
  exact decide_eq_false hlt.not_ge

theorem yields_emptyStatement : Yields emptyStatement Statement.IsRead :=
  (yields_spanned fun _ => advances_symbol ";" rfl).bind fun _ hspan =>
    .pure ⟨Statement.isCode_empty _, hspan⟩

theorem yields_statement (h : g.Readable) : Yields (statement g) Statement.IsRead := by
  refine (((yields_block h.statement).mono fun _ hs => hs.toIsRead).orElse ?_).orElse ?_
  · exact Yields.spanned_bind ((yields_statementNode h).mono fun _ hnode _ =>
      .skip fun _ => .pure (hnode.isRead _))
  · exact yields_emptyStatement

/-- Every level of the grammar reads what is readable. -/
theorem level_readable (n : Nat) : (level n).Readable := by
  induction n with
  | zero => exact ⟨Yields.fail, Yields.fail, Yields.fail⟩
  | succ n ih => exact ⟨yields_unary ih, yields_expression ih, yields_statement ih⟩

/-! ### Members -/

theorem yields_annotationUse (h : g.Readable) :
    Yields (annotationUse g) fun a => (Piece.annotated a).Readable .code := by
  have hmember : Yields (annotationMember g)
      fun member => IsName member.1 ∧ member.2.IsCode :=
    Yields.orElse
      (yields_identifier.bind fun _ hname => .skip fun _ =>
        (yields_value h).bind fun _ hvalue => .pure ⟨hname, hvalue⟩)
      ((yields_value h).bind fun _ hvalue => .pure ⟨isName_value, hvalue⟩)
  refine Yields.spanned_bind (.skip fun _ => .skip fun type => ?_)
  refine hmember.separated.between.optional.bind fun members hm => .pure fun span => .pure ?_
  have hall : ∀ member ∈ members.getD [], IsName member.1 ∧ member.2.IsCode := by
    cases members with
    | none => exact List.forall_mem_nil _
    | some members => exact hm members rfl
  exact .whole nofun (List.forall_mem_map.mpr fun member hmember => (hall member hmember).1)
    (List.forall_mem_map.mpr fun member hmember => (hall member hmember).2)

theorem yields_annotations (h : g.Readable) : Yields (many (annotationUse g))
    fun annotations => ∀ q ∈ annotations.map Piece.annotated, q.Readable .code :=
  (yields_annotationUse h).many.mono fun _ ha => List.forall_mem_map.mpr ha

theorem yields_parameters (h : g.Readable) :
    Yields (parameters g) fun ps => (∀ name ∈ ps.map Parameter.name, IsName name) ∧
      ∀ q ∈ (defaultValues ps).map Piece.ofExpression, q.Readable .code :=
  (yields_parameter h).separated.between.mono fun _ hps => ⟨isName_of_mem_parameters hps,
    List.forall_mem_map.mpr fun e he => .part (isValue_of_mem_defaultValues hps e he)⟩

theorem yields_method (h : g.Readable) :
    Yields (method g) fun m => (Piece.method m).Readable .code := by
  have hcode : Yields (orElse (some <$> block (statement g)) (do optionalSymbol ";"; pure none))
      fun code => ∀ q ∈ code.toList.map Piece.ofStatement, q.Readable .code := by
    refine Yields.orElse (.map ?_) (.skip fun _ => .pure (by simp))
    exact (yields_block (yields_statement h)).mono fun _ hs =>
      List.forall_mem_singleton.mpr hs.code
  refine Yields.spanned_bind ((yields_annotations h).bind fun annotations ha => ?_)
  refine .skip fun modifiers => .skip fun type => yields_identifier.bind fun name hname => ?_
  refine (yields_parameters h).bind fun parameters hp => hcode.bind fun code hc => ?_
  refine .pure fun span => .pure (.whole nofun ?_ ?_)
  · exact List.forall_mem_cons.mpr ⟨hname, hp.1⟩
  · exact List.forall_mem_append.mpr ⟨List.forall_mem_append.mpr ⟨ha, hp.2⟩, hc⟩

/-- The member is readable, and a constructor has a name. -/
structure MemberReadable (m : Member) : Prop where
  piece : m.piece.Readable .code
  name : ∀ name ∈ m.constructorName?, IsName name

theorem yields_constructor (h : g.Readable) : Yields (constructor g) MemberReadable := by
  refine Yields.spanned_bind ((yields_annotations h).bind fun annotations ha => ?_)
  refine .skip fun modifiers => yields_identifier.bind fun name hname => ?_
  refine (yields_parameters h).bind fun ps hp => ?_
  refine (yields_block (yields_statement h)).bind fun code hc => .pure fun span => .pure ?_
  refine ⟨.whole nofun hp.1 ?_, fun _ h => Option.some.inj h ▸ hname⟩
  exact List.forall_mem_append.mpr
    ⟨List.forall_mem_append.mpr ⟨ha, hp.2⟩, List.forall_mem_singleton.mpr hc.code⟩

theorem yields_field (h : g.Readable) : Yields (field g) MemberReadable := by
  have hvalue : Yields (do symbol "="; expression g) Expression.IsCode :=
    .skip fun _ => yields_value h
  refine Yields.spanned_bind ((yields_annotations h).bind fun annotations ha => ?_)
  refine .skip fun modifiers => .skip fun type => yields_identifier.bind fun name hname => ?_
  refine hvalue.optional.bind fun initial hi => .pure fun span => ?_
  have hfield : (Piece.field
      ⟨name, modifiers, type, annotations, initial, "", span⟩).Readable .code := by
    refine .whole nofun (List.forall_mem_singleton.mpr hname)
      (List.forall_mem_append.mpr ⟨ha, List.forall_mem_map.mpr fun e he => ?_⟩)
    exact hi e (Option.mem_toList.mp he)
  dsimp only
  split
  · exact .pure ⟨hfield, nofun⟩
  · exact .pure ⟨hfield, nofun⟩

theorem yields_member (h : g.Readable) : Yields (member g) MemberReadable := by
  have hmember : Yields (orElse (orElse (Member.method <$> method g) (constructor g)) (field g))
      MemberReadable := by
    refine Yields.orElse (Yields.orElse (.map ?_) (yields_constructor h)) (yields_field h)
    exact (yields_method h).mono fun _ hm => ⟨hm, nofun⟩
  exact hmember.bind fun _ hm => .skip fun _ => .pure hm

/-! ### Classes and scripts -/

theorem yields_classDeclaration (h : g.Readable) :
    Yields (classDeclaration g) fun c => (Piece.declaration c).Readable .code := by
  refine Yields.spanned_bind ((yields_annotations h).bind fun annotations ha => ?_)
  refine .skip fun modifiers => .skip fun _ => yields_identifier.bind fun name hname => ?_
  refine .skip fun superClass => .skip fun interfaces => ?_
  refine (yields_member h).many.between.bind fun members hm => ?_
  refine .pure fun span => .pure (.whole nofun (List.forall_mem_cons.mpr ⟨hname, ?_⟩) ?_)
  · intro name hname
    obtain ⟨member, hmember, hconstructor⟩ := List.mem_filterMap.mp hname
    exact (hm member hmember).name name hconstructor
  · exact List.forall_mem_append.mpr
      ⟨ha, List.forall_mem_map.mpr fun member hmember => (hm member hmember).piece⟩

theorem yields_item (h : g.Readable) :
    Yields (item g) fun i => i.piece.Readable .code ∧ i.piece.Present := by
  refine Yields.orElse (Yields.orElse (.map ?_) (.map ?_)) (.map ?_)
  · exact (yields_classDeclaration h).mono fun _ hd => ⟨hd, nofun⟩
  · exact (yields_method h).mono fun _ hm => ⟨hm, nofun⟩
  · exact (yields_statement h).mono fun _ hs =>
      ⟨hs.code, fun _ hq => Piece.code.inj hq ▸ hs.present⟩

end ScriptOutline.Grammar

namespace ScriptOutline

open ScriptOutline.Grammar

/-- What all items are that can be read, the roots of every script are. -/
theorem Script.parse_roots {P : Piece → Prop}
    (hitem : ∀ n, Yields (item (level n)) fun i => P i.piece) {source : String} {s : Script}
    (h : Script.parse source = .ok s) : ∀ root ∈ s.roots, P root := by
  simp only [Script.parse, Cursor.start] at h
  split at h
  · next script c alt heq =>
    obtain rfl : script = s := by simpa using h
    have hscript : Yields (Grammar.script (level (source.toList.length + 1)))
        fun s => ∀ root ∈ s.roots, P root :=
      .skip fun _ => (hitem _).many.bind fun items hi => .skip fun _ =>
        .pure fun root hroot => by
          obtain ⟨i, hmem, rfl⟩ := mem_roots_scriptOf.mp hroot
          exact hi i hmem
    exact hscript _ script c alt heq
  · simp at h

/-- The roots of every script that is read are readable. -/
theorem Script.parse_readable {source : String} {s : Script} (h : Script.parse source = .ok s) :
    ∀ root ∈ s.roots, root.Readable .code :=
  Script.parse_roots (fun n => (yields_item (level_readable n)).mono fun _ hi => hi.1) h

/-- None of its statements is missing. -/
theorem Script.parse_present {source : String} {s : Script} (h : Script.parse source = .ok s) :
    ∀ root ∈ s.roots, root.Present :=
  Script.parse_roots (fun n => (yields_item (level_readable n)).mono fun _ hi => hi.2) h

end ScriptOutline
