/-
ScriptOutline/Proofs/MovedExpression.lean

The rules for types and expressions, read at another place.  Code is moved by moving the spans in
it that were written (`Expression.moved`); two runs of a rule over inner rules that come to the
same end on all shorter texts (`Inner.Below`) come to the same end themselves.  As with the other
judgments, the proof about a rule follows the rule.

A span that is computed from other spans moves with them only if these were written.  So of an
expression more is told than that it is moved: it was written itself (`Expression.MovesTo`).
Placeholders take no part in the computation of spans.
-/
import ScriptOutline.Proofs.Moved
import ScriptOutline.Proofs.Revision
import ScriptOutline.Proofs.Span

namespace ScriptOutline

/-! ### Code at another place -/

/-- All spans that were written are moved. -/
def Revision.moving (k : Nat) : Revision := { span := Span.moved k }

abbrev Expression.moved (k : Nat) (e : Expression) : Expression := e.revised (.moving k)

abbrev Statement.moved (k : Nat) (s : Statement) : Statement := s.revised (.moving k)

section

variable {k : Nat}

theorem Span.moved_through {a b : Span} (ha : 0 < a.stop) (hb : 0 < b.stop) :
    (a.through b).moved k = (a.moved k).through (b.moved k) := by
  rw [moved_of_stop ha, moved_of_stop hb]
  exact moved_of_stop hb

@[simp] theorem Expression.span_moved (e : Expression) : (e.moved k).span = e.span.moved k := by
  cases e
  rfl

theorem Expression.asCondition_moved (e : Expression) :
    (e.moved k).asCondition = e.asCondition.moved k := by
  cases e
  rfl

/-- The second expression is the first one at another place, and the first one was written. -/
structure Expression.MovesTo (k : Nat) (e e' : Expression) : Prop where
  eq : e' = e.moved k
  written : 0 < e.span.stop

theorem Expression.MovesTo.of_written {node node' : ExpressionNode} {span : Span}
    (hnode : node' = node.revised (.moving k)) (hspan : 0 < span.stop) :
    MovesTo k (.written node span) (.written node' (span.moved k)) :=
  ⟨hnode ▸ rfl, hspan⟩

/-- An expression that spans two others. -/
theorem Expression.MovesTo.of_through {node node' : ExpressionNode} {a b : Expression}
    (hnode : node' = node.revised (.moving k)) (ha : 0 < a.span.stop) (hb : 0 < b.span.stop) :
    MovesTo k (.written node (a.span.through b.span))
      (.written node' ((a.moved k).span.through (b.moved k).span)) := by
  rw [span_moved, span_moved, ← Span.moved_through ha hb]
  exact .of_written hnode hb

theorem Expression.MovesTo.all {es es' : List Expression} (h : List.Forall₂ (MovesTo k) es es') :
    es' = revisedExpressions (.moving k) es :=
  (eq_map_of_forall₂ h fun _ _ h => h.eq).trans (revisedExpressions_eq_map _ _).symm

end

namespace Grammar

open ScriptOutline.Grammar.Parser

variable {k n : Nat} {g g' : Inner}

/-- The notions that contain one another come to the same end on texts of at most `n`
characters. -/
structure Inner.MovesTo (k n : Nat) (g g' : Inner) : Prop where
  classType : Moves k n g.classType g'.classType Eq
  unary : Moves k n g.unary g'.unary (Expression.MovesTo k)
  expression : Moves k n g.expression g'.expression (Expression.MovesTo k)
  statement : Moves k n g.statement g'.statement fun s s' => s' = s.moved k

/-- The notions come to the same end on texts of less than `n` characters, and go forward. -/
structure Inner.Below (k n : Nat) (g g' : Inner) : Prop where
  sound (size : Nat) : g.Sound size
  inner : ∀ m < n, Inner.MovesTo k m g g'

theorem Inner.Below.of_le {m : Nat} (h : Inner.Below k n g g') (hle : m ≤ n) :
    Inner.Below k m g g' := ⟨h.sound, fun l hl => h.inner l (hl.trans_le hle)⟩

/-! ### Types -/

theorem moves_classType (h : Inner.Below k n g g') :
    Moves k n (classType g) (classType g') Eq := by
  refine moves_identifier.bind_same fun head => ?_
  refine ((moves_exactly _).bind_same fun _ => moves_identifier).many_same.bind_same fun _ => ?_
  exact (Moves.between rfl fun m hm => (h.inner m hm).classType.separated
    (moves_symbol _)).optional.bind fun _ _ _ => .pure_same _

theorem moves_emptyBrackets : Moves k n emptyBrackets emptyBrackets Eq :=
  (moves_symbol _).bind_same fun _ => moves_symbol _

theorem moves_typeName (h : Inner.Below k n g g') : Moves k n (typeName g) (typeName g') Eq :=
  (moves_classType h).bind_same fun _ => moves_emptyBrackets.many_same.bind_same fun _ =>
    .pure_same _

theorem moves_declaredType (h : Inner.Below k n g g') :
    Moves k n (declaredType g) (declaredType g') Eq :=
  (Moves.keyword_pure _ _).orElse (moves_typeName h)

/-! ### Literals -/

theorem moves_constantOf {p : Parser Constant} (hp : Moves k n p p Eq) :
    Moves k n (constantOf p) (constantOf p) (Expression.MovesTo k) :=
  hp.spanned_same fun _ _ hspan => .pure (.of_written rfl hspan)

theorem moves_regex : Moves k n regex regex (Expression.MovesTo k) :=
  moves_pattern.spanned_same fun _ _ hspan => .pure (.of_written rfl hspan)

theorem moves_namedConstant : Moves k n namedConstant namedConstant Eq :=
  ((Moves.keyword_pure _ _).orElse (Moves.keyword_pure _ _)).orElse (Moves.keyword_pure _ _)

/-- A piece of a text at another place. -/
def Fragment.moved (k : Nat) : Fragment → Fragment
  | .char c => .char c
  | .value e => .value (e.moved k)

theorem splitFragments_moved (fragments : List Fragment) :
    splitFragments (fragments.map (Fragment.moved k)) = ((splitFragments fragments).1,
      (splitFragments fragments).2.map fun v => (v.1.moved k, v.2)) := by
  induction fragments with
  | nil => rfl
  | cons fragment rest ih => cases fragment <;> simp [Fragment.moved, splitFragments, ih]

theorem textOf_movesTo (fragments : List Fragment) {span : Span} (hspan : 0 < span.stop) :
    (textOf fragments span).MovesTo k
      (textOf (fragments.map (Fragment.moved k)) (span.moved k)) := by
  rw [textOf, textOf, splitFragments_moved]
  obtain ⟨text, values⟩ := splitFragments fragments
  cases values with
  | nil => exact .of_written rfl hspan
  | cons value values =>
    refine .of_written ?_ hspan
    simp only [ExpressionNode.revised, revisedExpressions_eq_map, List.map_cons, List.map_map]
    rfl

theorem moves_interpolatedExpression (h : Inner.Below k n g g') :
    Moves k n (interpolatedExpression g) (interpolatedExpression g') (Expression.MovesTo k) :=
  (moves_exactly _).after_same (fun _ => advances_exactly (by simp)) fun m hm _ =>
    (h.inner m hm).expression.bind fun _ _ he => (moves_exactly _).bind_same fun _ => .pure he

theorem moves_interpolatedPath :
    Moves k n interpolatedPath interpolatedPath (Expression.MovesTo k) := by
  refine (moves_exactly _).bind_same fun _ => moves_word.spanned_same fun name span hspan => ?_
  refine Moves.fold_many ((moves_exactly _).bind_same fun _ => moves_word.spanned)
    (.of_written rfl hspan) ?_
  rintro object _ ⟨rfl, hobject⟩ ⟨name, span⟩ ⟨_, _⟩ ⟨rfl, hspan, rfl⟩
  dsimp only
  rw [Expression.span_moved, ← Span.moved_through hobject hspan]
  exact .of_written rfl hspan

theorem moves_fragment (h : Inner.Below k n g g') :
    Moves k n (fragment g) (fragment g') fun x y => y = x.moved k := by
  refine Moves.firstOf (.map ?_) (.cons (.map ?_) (.cons (.map ?_) (.cons (.map ?_) .nil)))
  · exact (moves_interpolatedExpression h).mono fun _ _ he => congrArg Fragment.value he.eq
  · exact moves_interpolatedPath.mono fun _ _ he => congrArg Fragment.value he.eq
  · exact moves_escape.mono fun _ _ hc => congrArg Fragment.char hc.symm
  · exact (moves_satisfy _).mono fun _ _ hc => congrArg Fragment.char hc.symm

theorem moves_doubleQuoted (h : Inner.Below k n g g') :
    Moves k n (doubleQuoted g) (doubleQuoted g') (Expression.MovesTo k) := by
  refine .spanned_bind ((moves_exactly _).bind_same fun _ => ?_)
  refine (moves_fragment h).many.mapped.bind ?_
  rintro fragments _ rfl
  exact (moves_exactly _).bind_same fun _ => .pure fun _ hspan => .pure (textOf_movesTo _ hspan)

theorem moves_literal (h : Inner.Below k n g g') :
    Moves k n (literal g) (literal g') (Expression.MovesTo k) := by
  refine Moves.firstOf ?_ (.cons ?_ (.cons ?_ (.cons ?_ (.cons ?_ .nil))))
  · exact moves_constantOf moves_number.token
  · exact moves_constantOf (.map (moves_quoted.token.mono fun _ _ h => congrArg _ h))
  · exact (moves_doubleQuoted h).token
  · exact moves_regex.token
  · exact moves_constantOf moves_namedConstant

/-! ### Parameters and closures -/

/-- Something that may be missing, related by a function if it is there. -/
theorem eq_map_of_rel {α β : Type} {R : α → β → Prop} {f : α → β} {x : Option α} {y : Option β}
    (h : Option.Rel R x y) (hR : ∀ x y, R x y → y = f x) : y = x.map f := by
  cases h with
  | some h => rw [hR _ _ h, Option.map_some]
  | none => rfl

theorem moves_optionalExpression {p p' : Parser Expression}
    (h : Moves k n p p' (Expression.MovesTo k)) :
    Moves k n (optional p) (optional p') fun x y => y = x.map (Expression.moved k) :=
  h.optional.mono fun _ _ hvalue => eq_map_of_rel hvalue fun _ _ he => he.eq

theorem moves_initialValue (h : Inner.Below k n g g') :
    Moves k n (initialValue g) (initialValue g') fun x y => y = x.map (Expression.moved k) :=
  moves_optionalExpression (.behind_symbol rfl fun m hm => (h.inner m hm).expression)

theorem moves_typedName (h : Inner.Below k n g g') :
    Moves k n (typedName g) (typedName g') Eq :=
  .orElse
    ((moves_declaredType h).bind_same fun _ => moves_identifier.bind_same fun _ => .pure_same _)
    (moves_identifier.bind_same fun _ => .pure_same _)

theorem moves_parameter (h : Inner.Below k n g g') :
    Moves k n (parameter g) (parameter g') fun p p' => p' = p.revised (.moving k) :=
  (moves_typedName h).bind_same fun _ => (moves_initialValue h).bind fun _ _ hvalue =>
    .pure (hvalue ▸ rfl)

/-- In a closure the default values move as well. -/
theorem revisedInClosure_moving (p : Parameter) :
    p.revisedInClosure (.moving k) = p.revised (.moving k) := by
  obtain ⟨name, type, _ | value⟩ := p <;> rfl

theorem moves_head (h : Inner.Below k n g g') :
    Moves k n
      (optional do
        let parameters ← separated (parameter g) (symbol ",") .refused
        symbol "->"
        pure parameters)
      (optional do
        let parameters ← separated (parameter g') (symbol ",") .refused
        symbol "->"
        pure parameters) fun head head' => head' = revisedHead (.moving k) head := by
  have hparameters {p p' : Parser (List Parameter)}
      (hp : Moves k n p p' (List.Forall₂ fun p p' => p' = p.revised (.moving k))) :
      Moves k n (do let ps ← p; symbol "->"; pure ps) (do let ps ← p'; symbol "->"; pure ps)
        fun ps ps' => ps' = ps.map (Parameter.revised (.moving k)) :=
    hp.mapped.bind fun _ _ hps => (moves_symbol _).bind_same fun _ => .pure hps
  refine (hparameters ((moves_parameter h).separated (moves_symbol _))).optional.mono ?_
  rintro _ _ (hps | _)
  · simp only [hps, revisedHead, revisedParameters_eq_map, revisedInClosure_moving]
  · rfl

theorem moves_closure (h : Inner.Below k n g g') :
    Moves k n (closure g) (closure g') (Expression.MovesTo k) := by
  refine .spanned_bind (.behind_symbol rfl fun m hm => ?_)
  refine (moves_head (h.of_le hm.le)).bind fun head head' hhead => ?_
  refine (h.inner m hm).statement.many.mapped.bind fun statements statements' hstatements => ?_
  rw [hhead, hstatements, ← revisedStatements_eq_map]
  exact (moves_symbol _).bind_same fun _ => .pure fun _ hspan => .pure (.of_written rfl hspan)

/-! ### Arguments -/

theorem moves_entryKey (h : Inner.Below k n g g') :
    Moves k n (entryKey g) (entryKey g') (Expression.MovesTo k) := by
  refine .orElse (moves_constantOf ?_) (.between rfl fun m hm => (h.inner m hm).expression)
  refine Moves.firstOf (.map ?_) (.cons (.map ?_) (.cons moves_number.token .nil))
  · exact moves_identifier.mono fun _ _ h => congrArg _ h
  · exact moves_quoted.token.mono fun _ _ h => congrArg _ h

theorem moves_mapEntry (h : Inner.Below k n g g') :
    Moves k n (mapEntry g) (mapEntry g') (Expression.MovesTo k) := by
  refine .orElse (.spanned_bind ?_) (.spanned_bind ?_)
  · refine (moves_entryKey h).bind fun key key' hkey => .behind_symbol rfl fun m hm => ?_
    exact (h.inner m hm).expression.bind fun _ _ hvalue => .pure fun _ hspan =>
      .pure (.of_written (hkey.eq ▸ hvalue.eq ▸ rfl) hspan)
  · refine .behind_symbol rfl fun m hm => ?_
    exact (h.inner m hm).expression.mono fun _ _ ⟨heq, _⟩ _ hspan =>
      .pure (.of_written (heq ▸ rfl) hspan)

theorem moves_spread (h : Inner.Below k n g g') :
    Moves k n (spread g) (spread g') (Expression.MovesTo k) := by
  refine .spanned_bind (.behind_symbol rfl fun m hm => ?_)
  exact (h.inner m hm).expression.mono fun _ _ ⟨heq, _⟩ _ hspan =>
    .pure (.of_written (heq ▸ rfl) hspan)

/-- An argument at another place. -/
def Argument.moved (k : Nat) : Argument → Argument
  | .named entry => .named (entry.moved k)
  | .positional value => .positional (value.moved k)

theorem namedOf_moved (items : List Argument) :
    namedOf (items.map (Argument.moved k)) = (namedOf items).map (Expression.moved k) := by
  induction items with
  | nil => rfl
  | cons item items ih => cases item <;> simp [Argument.moved, namedOf, ih]

theorem positionalOf_moved (items : List Argument) :
    positionalOf (items.map (Argument.moved k)) =
      (positionalOf items).map (Expression.moved k) := by
  induction items with
  | nil => rfl
  | cons item items ih => cases item <;> simp [Argument.moved, positionalOf, ih]

/-- The list of the named arguments spans them from the first to the last one. -/
theorem namedArguments_moved {entry : Expression} {entries : List Expression}
    (h : ∀ e ∈ entry :: entries, 0 < e.span.stop) :
    Expression.written
      (.sequence .namedArguments (entry.moved k :: entries.map (Expression.moved k)))
      ((entry.moved k).span.through
        ((entry.moved k :: entries.map (Expression.moved k)).getLast (by simp)).span) =
    (Expression.written (.sequence .namedArguments (entry :: entries))
      (entry.span.through ((entry :: entries).getLast (by simp)).span)).moved k := by
  have hlast : (entry.moved k :: entries.map (Expression.moved k)).getLast (by simp) =
      ((entry :: entries).getLast (by simp)).moved k := by
    simp only [← List.map_cons, List.getLast_map]
  rw [hlast]
  refine (Expression.MovesTo.of_through ?_ (h _ List.mem_cons_self)
    (h _ (List.getLast_mem _))).eq
  rw [ExpressionNode.revised, revisedExpressions_eq_map, List.map_cons]

theorem argumentList_movesTo {items : List Argument} (hitems : ∀ a ∈ items, 0 < a.value.span.stop)
    (trailing : Option Expression) {span : Span} (hspan : 0 < span.stop) :
    (argumentList items trailing span).MovesTo k
      (argumentList (items.map (Argument.moved k)) (trailing.map (Expression.moved k))
        (span.moved k)) := by
  have hnamed : ∀ e ∈ namedOf items, 0 < e.span.stop := by
    intro e he
    obtain ⟨a, ha, rfl⟩ := List.mem_map.mp ((namedOf_sublist items).subset he)
    exact hitems a ha
  have hpositional : positionalOf (items.map (Argument.moved k)) ++
      (trailing.map (Expression.moved k)).toList =
      (positionalOf items ++ trailing.toList).map (Expression.moved k) := by
    rw [positionalOf_moved, List.map_append]
    cases trailing <;> rfl
  rw [argumentList, argumentList, hpositional, namedOf_moved]
  generalize positionalOf items ++ trailing.toList = positional
  cases hentries : namedOf items with
  | nil => exact .of_written (by rw [ExpressionNode.revised, revisedExpressions_eq_map]) hspan
  | cons entry entries =>
    rw [hentries] at hnamed
    cases positional with
    | nil =>
      refine .of_written ?_ hspan
      rw [namedArguments_moved hnamed]
      rfl
    | cons value values =>
      refine .of_written ?_ hspan
      rw [namedArguments_moved hnamed, ExpressionNode.revised, revisedExpressions_eq_map]
      rfl

/-- An argument moves if its value does. -/
structure Argument.MovesTo (k : Nat) (a a' : Argument) : Prop where
  eq : a' = a.moved k
  written : 0 < a.value.span.stop

theorem moves_argument (h : Inner.Below k n g g') (hinner : Inner.MovesTo k n g g') :
    Moves k n (argument g) (argument g') (Argument.MovesTo k) := by
  refine .orElse (.orElse (.map ?_) (.map ?_)) (.map ?_)
  · exact (moves_mapEntry h).mono fun _ _ he => ⟨congrArg Argument.named he.eq, he.written⟩
  · exact (moves_spread h).mono fun _ _ he =>
      ⟨congrArg Argument.positional he.eq, he.written⟩
  · exact hinner.expression.mono fun _ _ he => ⟨congrArg Argument.positional he.eq, he.written⟩

theorem moves_arguments (h : Inner.Below k n g g') :
    Moves k n (arguments g) (arguments g') (Expression.MovesTo k) := by
  have hargument (m : Nat) (hm : m < n) := moves_argument (h.of_le hm.le) (h.inner m hm)
  refine .spanned_bind ((Moves.between rfl fun m hm =>
    (hargument m hm).separated (moves_symbol _)).bind fun items items' hitems => ?_)
  refine (moves_closure h).optional.bind fun trailing trailing' htrailing => ?_
  rw [eq_map_of_forall₂ hitems fun _ _ ha => ha.eq, eq_map_of_rel htrailing fun _ _ he => he.eq]
  have hwritten := ((List.forall₂_and_left _ _).mp (hitems.imp fun _ _ ha => ⟨ha.written, ha⟩)).1
  exact .pure fun _ hspan => .pure (argumentList_movesTo hwritten trailing hspan)

/-! ### Primaries -/

theorem moves_sizedArray (h : Inner.Below k n g g') :
    Moves k n (sizedArray g) (sizedArray g') (Expression.MovesTo k) := by
  refine .spanned_bind (.behind_keyword _ fun m hm => ?_)
  refine (moves_classType (h.of_le hm.le)).bind_same fun type => ?_
  refine (Moves.between rfl fun l hl => (h.inner l (hl.trans hm)).expression).many1.bind
    fun sizes sizes' hsizes => ?_
  rw [Expression.MovesTo.all hsizes]
  exact moves_emptyBrackets.many_same.bind_same fun _ => .pure fun _ hspan =>
    .pure (.of_written rfl hspan)

theorem moves_initializedArray (h : Inner.Below k n g g') :
    Moves k n (initializedArray g) (initializedArray g') (Expression.MovesTo k) := by
  refine .spanned_bind (.behind_keyword _ fun m hm => ?_)
  refine (moves_classType (h.of_le hm.le)).bind_same fun type => ?_
  refine moves_emptyBrackets.many1_same.bind_same fun dimensions => ?_
  refine (Moves.between rfl fun l hl => (h.inner l (hl.trans hm)).expression.separated
    (moves_symbol _)).bind fun elements elements' helements => ?_
  rw [Expression.MovesTo.all helements]
  exact .pure fun _ hspan => .pure (.of_written rfl hspan)

theorem moves_newObject (h : Inner.Below k n g g') :
    Moves k n (newObject g) (newObject g') (Expression.MovesTo k) := by
  refine .spanned_bind (.behind_keyword _ fun m hm => ?_)
  refine (moves_classType (h.of_le hm.le)).bind_same fun type => ?_
  exact (moves_arguments (h.of_le hm.le)).bind fun _ _ ⟨heq, _⟩ => .pure fun _ hspan =>
    .pure (.of_written (heq ▸ rfl) hspan)

theorem moves_specialWord : Moves k n specialWord specialWord Eq :=
  (Moves.keyword_pure _ _).orElse (Moves.keyword_pure _ _)

theorem moves_specialCall (h : Inner.Below k n g g') :
    Moves k n (specialCall g) (specialCall g') (Expression.MovesTo k) := by
  refine .spanned_bind (moves_specialWord.bind_same fun special => ?_)
  exact (moves_arguments h).bind fun _ _ ⟨heq, _⟩ => .pure fun _ hspan =>
    .pure (.of_written (heq ▸ rfl) hspan)

theorem moves_specialVariable :
    Moves k n specialVariable specialVariable (Expression.MovesTo k) :=
  moves_specialWord.spanned_same fun _ _ hspan => .pure (.of_written rfl hspan)

theorem moves_emptyMap : Moves k n emptyMap emptyMap (Expression.MovesTo k) :=
  .spanned_same ((moves_symbol _).bind_same fun _ => (moves_symbol _).bind_same fun _ =>
    moves_symbol _) fun _ _ hspan => .pure (.of_written rfl hspan)

theorem moves_map (h : Inner.Below k n g g') :
    Moves k n (map g) (map g') (Expression.MovesTo k) := by
  refine .spanned_bind (.between rfl fun m hm => ?_)
  exact ((moves_mapEntry (h.of_le hm.le)).separated1 (moves_symbol _)).mono
    fun _ _ hentries _ hspan =>
      .pure (.of_written (Expression.MovesTo.all hentries ▸ rfl) hspan)

theorem moves_list (h : Inner.Below k n g g') :
    Moves k n (list g) (list g') (Expression.MovesTo k) := by
  refine .spanned_bind (.between rfl fun m hm => ?_)
  exact (((moves_spread (h.of_le hm.le)).orElse (h.inner m hm).expression).separated
    (moves_symbol _)).mono fun _ _ hitems _ hspan =>
      .pure (.of_written (Expression.MovesTo.all hitems ▸ rfl) hspan)

theorem moves_variableName : Moves k n variableName variableName (Expression.MovesTo k) :=
  moves_identifier.spanned_same fun _ _ hspan => .pure (.of_written rfl hspan)

theorem moves_primary (h : Inner.Below k n g g') :
    Moves k n (primary g) (primary g') (Expression.MovesTo k) :=
  (moves_literal h).firstOf
    (.cons (moves_sizedArray h) (.cons (moves_initializedArray h) (.cons (moves_newObject h)
      (.cons (moves_specialCall h) (.cons moves_specialVariable (.cons (moves_closure h)
        (.cons moves_emptyMap (.cons (moves_map h) (.cons (moves_list h)
          (.cons (.between rfl fun m hm => (h.inner m hm).expression)
            (.cons moves_variableName .nil)))))))))))

/-! ### Suffixes -/

/-- A suffix at another place. -/
def Suffix.moved (k : Nat) : Suffix → Suffix
  | .pointer method => .pointer method
  | .attribute name => .attribute name
  | .classLiteral => .classLiteral
  | .member name accessor arguments =>
    .member name accessor (arguments.map (Expression.moved k))
  | .call arguments => .call (arguments.moved k)
  | .index position => .index (position.moved k)
  | .step operation => .step operation

theorem dottedName?_moved (e : Expression) : dottedName? (e.moved k) = dottedName? e := by
  induction e using dottedName?.induct with
  | case1 name declared origin span inferred => rfl
  | case2 object name span inferred ih =>
    show (dottedName? (object.moved k)).map _ = _
    rw [ih]
    rfl
  | case3 e hvariable haccess =>
    obtain ⟨node, span, inferred⟩ := e
    cases node
    case variableRef name declared origin =>
      exact absurd rfl (hvariable name declared origin span inferred)
    case access object name accessor =>
      cases accessor
      case plain => exact absurd rfl (haccess object name span inferred)
      all_goals rfl
    all_goals rfl

/-- An expression that starts with another one and ends somewhere behind it. -/
theorem movesTo_of_start {object : Expression} (hobject : 0 < object.span.stop) {stop : Nat}
    (hstop : 0 < stop) {node node' : ExpressionNode}
    (hnode : node' = node.revised (.moving k)) :
    (Expression.written node ⟨object.span.start, stop⟩).MovesTo k
      (.written node' ⟨(object.moved k).span.start, stop + k⟩) := by
  have hspan : Span.moved k ⟨object.span.start, stop⟩ = ⟨object.span.start + k, stop + k⟩ :=
    Span.moved_of_stop hstop
  rw [Expression.span_moved, Span.moved_of_stop hobject, ← hspan]
  exact .of_written hnode hstop

theorem Suffix.apply_movesTo {object : Expression} (hobject : 0 < object.span.stop)
    (suffix : Suffix) {stop : Nat} (hstop : 0 < stop) :
    (suffix.apply object stop).MovesTo k
      ((suffix.moved k).apply (object.moved k) (stop + k)) := by
  refine movesTo_of_start hobject hstop ?_
  cases suffix
  case classLiteral =>
    simp only [Suffix.moved, dottedName?_moved]
    cases dottedName? object <;> rfl
  case member name accessor arguments => cases arguments <;> rfl
  case call arguments =>
    obtain ⟨node, span, inferred⟩ := object
    cases node
    case variableRef name declared origin =>
      simp only [Suffix.moved]
      show (if _ then _ else _) = ExpressionNode.revised _ (if _ then _ else _)
      split <;> rfl
    all_goals rfl
  all_goals rfl

/-- A suffix that ends at a position, at another place. -/
def SuffixMoves (k : Nat) (x y : Suffix × Nat) : Prop := y = (x.1.moved k, x.2 + k) ∧ 0 < x.2

theorem moves_memberName : Moves k n memberName memberName
    fun x y => y = (x.1, x.2 + k) ∧ 0 < x.2 :=
  moves_identifier.spanned_same fun _ _ hspan =>
    .pure ⟨by rw [Span.moved_of_stop hspan], hspan⟩

theorem moves_accessor : Moves k n accessor accessor Eq :=
  (Moves.symbol_pure _ _).firstOf
    (.cons (.symbol_pure _ _) (.cons (.symbol_pure _ _) .nil))

theorem moves_memberArguments (h : Inner.Below k n g g') :
    Moves k n (memberArguments g) (memberArguments g') (Expression.MovesTo k) :=
  (moves_arguments h).orElse (.spanned_bind ((moves_closure h).mono fun _ _ ⟨heq, _⟩ _ hspan =>
    .pure (.of_written (heq ▸ rfl) hspan)))

theorem moves_memberSuffix (h : Inner.Below k n g g') :
    Moves k n (memberSuffix g) (memberSuffix g') (SuffixMoves k) := by
  refine moves_accessor.bind_same fun accessor => moves_memberName.bind ?_
  rintro ⟨name, stop⟩ _ ⟨rfl, hstop⟩
  refine (moves_memberArguments h).optional.bind ?_
  rintro _ _ (⟨rfl, hwritten⟩ | _)
  · refine .pure ⟨Prod.ext rfl ?_, hwritten⟩
    show (Expression.moved k _).span.stop = _
    rw [Expression.span_moved, Span.moved_of_stop hwritten]
    rfl
  · exact .pure ⟨rfl, hstop⟩

/-- A sign before the name of a member. -/
theorem moves_namedSuffix (s : String) (f : String → Suffix)
    (hf : ∀ name, (f name).moved k = f name) :
    Moves k n (do symbol s; let (name, stop) ← memberName; pure (f name, stop))
      (do symbol s; let (name, stop) ← memberName; pure (f name, stop)) (SuffixMoves k) := by
  refine (moves_symbol _).bind_same fun _ => moves_memberName.bind ?_
  rintro ⟨name, stop⟩ _ ⟨rfl, hstop⟩
  exact .pure ⟨by rw [hf], hstop⟩

theorem moves_suffix (h : Inner.Below k n g g') :
    Moves k n (suffix g) (suffix g') (SuffixMoves k) := by
  refine (moves_namedSuffix _ _ fun _ => rfl).firstOf (.cons (moves_namedSuffix _ _ fun _ => rfl)
    (.cons ?classLiteral (.cons (moves_memberSuffix h) (.cons ?call (.cons ?index
      (.cons ?step .nil))))))
  case classLiteral =>
    refine .spanned_same ((moves_symbol _).bind_same fun _ => moves_keyword _) fun _ _ hspan => ?_
    exact .pure ⟨by rw [Span.moved_of_stop hspan]; rfl, hspan⟩
  case call =>
    refine (moves_arguments h).bind ?_
    rintro arguments _ ⟨rfl, hwritten⟩
    exact .pure ⟨by rw [Expression.span_moved, Span.moved_of_stop hwritten]; rfl, hwritten⟩
  case index =>
    refine .spanned_bind (.between rfl fun m hm => (h.inner m hm).expression.mono ?_)
    rintro index _ ⟨rfl, -⟩ span hspan
    exact .pure ⟨by rw [Span.moved_of_stop hspan]; rfl, hspan⟩
  case step =>
    refine .spanned_same ((Moves.symbol_pure _ _).orElse (.symbol_pure _ _)) fun _ _ hspan => ?_
    exact .pure ⟨by rw [Span.moved_of_stop hspan]; rfl, hspan⟩

theorem moves_suffixed (h : Inner.Below k n g g') :
    Moves k n (suffixed g) (suffixed g') (Expression.MovesTo k) := by
  refine (moves_primary h).bind fun _ _ hobject => .fold_many (moves_suffix h) hobject ?_
  rintro object _ ⟨rfl, hobject⟩ ⟨suffix, stop⟩ _ ⟨rfl, hstop⟩
  exact suffix.apply_movesTo hobject hstop

/-! ### Operators before an operand -/

theorem moves_cast (h : Inner.Below k n g g') :
    Moves k n (cast g) (cast g') (Expression.MovesTo k) := by
  have htarget : Moves k n (between "(" (typeName g) ")") (between "(" (typeName g') ")") Eq :=
    .between rfl fun m hm => moves_typeName (h.of_le hm.le)
  -- the operand stands behind the brackets, which take two characters at least
  have hadvances (size : Nat) : Advances size (between "(" (typeName g) ")") :=
    (advances_symbol "(" rfl).then fun _ => (advances_typeName (h.sound size)).forward.bind_forward
      fun _ => (advances_symbol ")" rfl).forward.bind_forward fun _ => .pure_forward _
  refine .spanned_bind ((htarget.accepted _).after_same (fun size => (hadvances size).accepted)
    fun m hm target => ?_)
  exact (h.inner m hm).unary.bind fun _ _ ⟨heq, _⟩ => .pure fun _ hspan =>
    .pure (.of_written (heq ▸ rfl) hspan)

theorem moves_sign (s : String) : Moves k n (sign s) (sign s) Eq := .symbol_pure s s

theorem moves_signs (s : String) (others : List String) :
    Moves k n (signs s others) (signs s others) Eq := by
  refine (moves_sign s).firstOf ?_
  rw [List.forall₂_same, List.forall_mem_map]
  exact fun s _ => moves_sign s

theorem prefixed_moved (operation : String) (operand : Expression) :
    prefixed operation (operand.moved k) = (prefixed operation operand).revised (.moving k) := by
  simp only [prefixed]
  repeat' split
  all_goals rfl

theorem moves_unary (h : Inner.Below k n g g') :
    Moves k n (unary g) (unary g') (Expression.MovesTo k) := by
  refine ((moves_cast h).orElse (moves_suffixed h)).orElse (.spanned_bind ?_)
  refine (moves_signs _ _).after_same (fun _ => advances_signs _ _ rfl) fun m hm operation => ?_
  exact (h.inner m hm).unary.bind fun _ _ hoperand => .pure fun _ hspan =>
    .pure (.of_written (hoperand.eq ▸ prefixed_moved _ _) hspan)

theorem moves_coercion (h : Inner.Below k n g g') :
    Moves k n (do let (target, span) ← spanned (do keyword "as"; typeName g)
                  pure (target, span.stop))
      (do let (target, span) ← spanned (do keyword "as"; typeName g')
          pure (target, span.stop)) fun x y => y = (x.1, x.2 + k) ∧ 0 < x.2 :=
  .spanned_same ((moves_keyword _).bind_same fun _ => moves_typeName h) fun _ _ hspan =>
    .pure ⟨by rw [Span.moved_of_stop hspan], hspan⟩

theorem moves_coerced (h : Inner.Below k n g g') :
    Moves k n (coerced g) (coerced g') (Expression.MovesTo k) := by
  refine (moves_unary h).bind fun _ _ hoperand => .fold_many (moves_coercion h) hoperand ?_
  rintro operand _ ⟨rfl, hoperand⟩ ⟨target, stop⟩ _ ⟨rfl, hstop⟩
  exact movesTo_of_start hoperand hstop rfl

/-! ### Binary operators -/

/-- An expression that comes with something else. -/
def PairMoves {α : Type} (k : Nat) (x y : α × Expression) : Prop :=
  y = (x.1, x.2.moved k) ∧ 0 < x.2.span.stop

theorem PairMoves.intro {α : Type} {e e' : Expression} (x : α) (h : e.MovesTo k e') :
    PairMoves k (x, e) (x, e') := ⟨by rw [h.eq], h.written⟩

theorem moves_chain {operand operand' : Parser Expression}
    {others others' : Parser (String × Expression)}
    (hoperand : Moves k n operand operand' (Expression.MovesTo k))
    (hothers : Moves k n others others' (PairMoves k)) :
    Moves k n (chain operand others) (chain operand' others') (Expression.MovesTo k) := by
  refine hoperand.bind fun _ _ hfirst => .fold_many hothers hfirst ?_
  rintro left _ ⟨rfl, hleft⟩ ⟨operation, right⟩ _ ⟨rfl, hright⟩
  exact .of_through rfl hleft hright

theorem moves_round {operand operand' : Parser Expression} {operator : Parser String}
    (hoperand : Moves k n operand operand' (Expression.MovesTo k))
    (hoperator : Moves k n operator operator Eq) :
    Moves k n (do let operation ← operator; let right ← operand; pure (operation, right))
      (do let operation ← operator; let right ← operand'; pure (operation, right))
      (PairMoves k) :=
  hoperator.bind_same fun _ => hoperand.bind fun _ _ hright => .pure (.intro _ hright)

theorem moves_tier {operand operand' : Parser Expression} {operator : Parser String}
    (hoperand : Moves k n operand operand' (Expression.MovesTo k))
    (hoperator : Moves k n operator operator Eq) :
    Moves k n (tier operand operator) (tier operand' operator) (Expression.MovesTo k) :=
  moves_chain hoperand (moves_round hoperand hoperator)

theorem moves_shift (h : Inner.Below k n g g') :
    Moves k n (shift g) (shift g') (Expression.MovesTo k) := by
  have hpower : Moves k n (power g) (power g') (Expression.MovesTo k) :=
    moves_tier (moves_coerced h) (moves_sign _)
  have hmultiplicative : Moves k n (multiplicative g) (multiplicative g') (Expression.MovesTo k) :=
    moves_tier hpower (moves_signs _ _)
  have hadditive : Moves k n (additive g) (additive g') (Expression.MovesTo k) :=
    moves_tier hmultiplicative ((moves_sign _).orElse (moves_sign _))
  exact moves_tier hadditive ((moves_sign _).orElse (moves_sign _))

theorem moves_range (h : Inner.Below k n g g') :
    Moves k n (range g) (range g') (Expression.MovesTo k) := by
  refine (moves_shift h).bind fun first _ hfirst => ?_
  have hlast : Moves k n
      (do let inclusive ← orElse (do symbol "..<"; pure false) (do symbol ".."; pure true)
          let last ← shift g
          pure (inclusive, last))
      (do let inclusive ← orElse (do symbol "..<"; pure false) (do symbol ".."; pure true)
          let last ← shift g'
          pure (inclusive, last)) (PairMoves k) :=
    ((Moves.symbol_pure _ _).orElse (.symbol_pure _ _)).bind_same fun _ =>
      (moves_shift h).bind fun _ _ hlast => .pure (.intro _ hlast)
  refine hlast.optional.bind ?_
  rintro _ _ (@⟨⟨inclusive, last⟩, _, rfl, hlast⟩ | _)
  · obtain ⟨rfl, hfirst⟩ := hfirst
    exact .pure (.of_through rfl hfirst hlast)
  · exact .pure hfirst

theorem moves_wordSign (w : String) : Moves k n (wordSign w) (wordSign w) Eq := .keyword_pure w w

theorem moves_instanceTest (h : Inner.Below k n g g') :
    Moves k n (instanceTest g) (instanceTest g') (PairMoves k) :=
  (moves_wordSign _).bind_same fun _ => (moves_typeName h).spanned_same fun _ _ hspan =>
    .pure (.intro _ (.of_written rfl hspan))

theorem moves_relational (h : Inner.Below k n g g') :
    Moves k n (relational g) (relational g') (Expression.MovesTo k) := by
  refine moves_chain (moves_range h) (.orElse (moves_round (moves_range h) ?_)
    (moves_instanceTest h))
  exact (moves_sign _).firstOf (.cons (moves_sign _) (.cons (moves_sign _) (.cons (moves_sign _)
    (.cons (moves_wordSign _) .nil))))

theorem moves_logicalOr (h : Inner.Below k n g g') :
    Moves k n (logicalOr g) (logicalOr g') (Expression.MovesTo k) := by
  have hequality : Moves k n (equality g) (equality g') (Expression.MovesTo k) :=
    moves_tier (moves_relational h) (moves_signs _ _)
  have hand : Moves k n (bitwiseAnd g) (bitwiseAnd g') (Expression.MovesTo k) :=
    moves_tier hequality (moves_sign _)
  have hxor : Moves k n (bitwiseXor g) (bitwiseXor g') (Expression.MovesTo k) :=
    moves_tier hand (moves_sign _)
  have hor : Moves k n (bitwiseOr g) (bitwiseOr g') (Expression.MovesTo k) :=
    moves_tier hxor (moves_sign _)
  have hlogicalAnd : Moves k n (logicalAnd g) (logicalAnd g') (Expression.MovesTo k) :=
    moves_tier hor (moves_sign _)
  exact moves_tier hlogicalAnd (moves_sign _)

/-! ### Conditionals and assignments -/

theorem moves_conditionalBranches (h : Inner.Below k n g g') :
    Moves k n (conditionalBranches g) (conditionalBranches g') fun x y =>
      y = (x.1.map (Expression.moved k), x.2.moved k) ∧ 0 < x.2.span.stop := by
  refine .orElse (.behind_symbol rfl fun m hm => ?_) (.behind_symbol rfl fun m hm => ?_)
  · exact (h.inner m hm).expression.bind fun _ _ hotherwise =>
      .pure ⟨by rw [hotherwise.eq]; rfl, hotherwise.written⟩
  · refine (h.inner m hm).expression.bind fun _ _ htrue => (moves_symbol _).bind_same fun _ => ?_
    exact (h.inner m hm).expression.bind fun _ _ hfalse =>
      .pure ⟨by rw [htrue.eq, hfalse.eq]; rfl, hfalse.written⟩

theorem moves_conditional (h : Inner.Below k n g g') :
    Moves k n (conditional g) (conditional g') (Expression.MovesTo k) := by
  refine (moves_logicalOr h).bind ?_
  rintro condition _ ⟨rfl, hcondition⟩
  refine (moves_conditionalBranches h).optional.bind ?_
  rintro _ _ (@⟨⟨whenTrue, whenFalse⟩, _, rfl, hfalse⟩ | _)
  · cases whenTrue with
    | none =>
      exact .pure (.of_through (by rw [Expression.asCondition_moved]; rfl) hcondition hfalse)
    | some whenTrue =>
      exact .pure (.of_through (by rw [Expression.asCondition_moved]; rfl) hcondition hfalse)
  · exact .pure ⟨rfl, hcondition⟩

theorem moves_expression (h : Inner.Below k n g g') :
    Moves k n (expression g) (expression g') (Expression.MovesTo k) := by
  refine (moves_conditional h).bind fun target _ htarget => ?_
  have hassigned : Moves k n
      (do let operation ← signs "**=" ["+=", "-=", "*=", "/=", "%=", "="]
          let value ← g.expression
          pure (operation, value))
      (do let operation ← signs "**=" ["+=", "-=", "*=", "/=", "%=", "="]
          let value ← g'.expression
          pure (operation, value)) (PairMoves k) :=
    (moves_signs _ _).after_same (fun _ => advances_signs _ _ rfl) fun m hm _ =>
      (h.inner m hm).expression.bind fun _ _ hvalue => .pure (.intro _ hvalue)
  refine hassigned.optional.bind ?_
  rintro _ _ (@⟨⟨operation, value⟩, _, rfl, hvalue⟩ | _)
  · obtain ⟨rfl, htarget⟩ := htarget
    exact .pure (.of_through rfl htarget hvalue)
  · exact .pure htarget

end Grammar

end ScriptOutline
