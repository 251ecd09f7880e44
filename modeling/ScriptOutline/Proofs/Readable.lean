/-
ScriptOutline/Proofs/Readable.lean

The trees that can be read, as an inductive predicate (`Piece.Readable`).  Its constructors are
what the rules of the grammar build, each asking for no more of the parts than their rules give.
A piece is readable as one of four notions:

* a path, which is a variable of any name and plain accesses to members, as it stands in a text
  behind a `$`;
* what is inserted in a text: a path or a value;
* a value, which is what the rules for expressions read; nothing is declared by it, other than in
  a closure, which keeps it to itself;
* any code, declaration or annotation.

Whatever a rule reads is readable, and names are read by one rule only (`yields_identifier`),
apart from the words in a path.  As with spans, each rule of the grammar, over inner rules that
read what is readable (`Inner.Readable`), does so itself, and the proof about a rule follows the
rule.  This module has the rules for expressions.
-/
import ScriptOutline.Proofs.Climbing
import ScriptOutline.Proofs.Complete
import ScriptOutline.Proofs.Span
import ScriptOutline.Proofs.Site
import ScriptOutline.Proofs.Yield

namespace ScriptOutline

/-! ### Names -/

/-- The text is a name, and so no keyword. -/
def IsName (text : String) : Prop := ∃ x : Grammar.Name, text = x.text

theorem IsName.free {text : String} (h : IsName text) : text ∉ Grammar.keywords := by
  obtain ⟨x, rfl⟩ := h
  exact x.free

theorem isName_call : IsName "call" :=
  ⟨⟨'c', ['a', 'l', 'l'], by decide, List.all_eq_true.mp (by decide), by decide⟩, rfl⟩

theorem isName_value : IsName "value" :=
  ⟨⟨'v', ['a', 'l', 'u', 'e'], by decide, List.all_eq_true.mp (by decide), by decide⟩, rfl⟩

/-- The names of variables, of methods that are called and of parameters of closures, as far as
an expression has them itself. -/
def ExpressionNode.names : ExpressionNode → List String
  | .call _ method _ _ _ => [method]
  | .staticCall _ method _ => [method]
  | .methodPointer _ method => [method]
  | .variableRef name _ _ => [name]
  | .field name _ => [name]
  | .closure parameters _ => (parameters.getD []).map Parameter.name
  | _ => []

/-- A loop over a collection names a variable. -/
def StatementNode.names : StatementNode → List String
  | .loop (some binding) _ _ => [binding.name]
  | _ => []

/-- The names in a part itself. -/
def Part.names : Part → List String
  | .expression e => e.node.names
  | .statement s => s.node.names
  | .catchClause c => [c.binding.name]
  | .caseClause _ => []

/-- The name that a constructor was declared with. -/
def Member.constructorName? : Member → Option String
  | .constructor name _ => some name
  | _ => none

/-- The names in a piece itself: of what it declares, of its parameters and of what it refers
to. -/
def Piece.names : Piece → List String
  | .code p => p.names
  | .annotated a => a.members.map Prod.fst
  | .field f => [f.name]
  | .constructor c => c.parameters.map Parameter.name
  | .method m => m.name :: m.parameters.map Parameter.name
  | .declaration d => d.name :: d.members.filterMap Member.constructorName?

/-! ### What can be read -/

/-- What a piece can be read as. -/
inductive Notion where
  | path
  | inserted
  | value
  | code

/-- A word that is a variable although it is a keyword. -/
def IsSpecialWord (word : String) : Prop := ∃ special : SpecialCall, word = special.word

/-- What is asked of the node of a value, unless it is a text or a short conditional.  Calls that
are known to be static, fields and bytecode are not written at all, and a value is not missing. -/
def ExpressionNode.Ordinary : ExpressionNode → Prop
  | .call object method _ _ implicitReceiver =>
    IsName method ∧ (implicitReceiver = true → object.variableName?.isSome)
  | .methodPointer _ method => IsName method
  | .variableRef name _ _ => IsName name ∨ IsSpecialWord name
  | .closure parameters _ => ∀ p ∈ parameters.getD [], IsName p.name
  | .staticCall .. | .declaration .. | .elvis .. | .field .. | .interpolation .. | .bytecode _
  | .empty => False
  | _ => True

/-- The piece can be read as what the notion says. -/
inductive Piece.Readable : Notion → Piece → Prop
  | word (name : String) (span : Span) :
    Readable .path (.code (.expression (.written (.variableRef name none none) span)))
  | step {object : Expression} (name : String) (span : Span) :
    Readable .path (.code (.expression object)) →
      Readable .path (.code (.expression (.written (.access object name .plain) span)))
  | ofPath {p : Piece} : Readable .path p → Readable .inserted p
  | ofValue {p : Piece} : Readable .value p → Readable .inserted p
  | node {node : ExpressionNode} {span : Span} :
    node.Ordinary → (∀ q ∈ node.inner, Readable .value (.code q)) →
      Readable .value (.code (.expression (.written node span)))
  /-- A text has one fragment more than values. -/
  | text {fragments values : List Expression} {span : Span} :
    fragments.length = values.length + 1 →
      (∀ e ∈ fragments, Readable .value (.code (.expression e))) →
      (∀ e ∈ values, Readable .inserted (.code (.expression e))) →
      Readable .value (.code (.expression (.written (.interpolation fragments values) span)))
  /-- The operand of a short conditional is stored twice. -/
  | elvis {value otherwise : Expression} {span : Span} :
    Readable .value (.code (.expression value)) →
      Readable .value (.code (.expression otherwise)) →
      Readable .value
        (.code (.expression (.written (.elvis value.asCondition value otherwise) span)))
  /-- The code of a closure. -/
  | block {statements : List Statement} {span : Span} :
    (∀ s ∈ statements, (Part.statement s).Present) →
      (∀ s ∈ statements, Readable .code (.code (.statement s))) →
      Readable .value (.code (.statement ⟨.block statements none, span⟩))
  | part {p : Piece} : Readable .value p → Readable .code p
  /-- Where an expression may be missing, the placeholder is read. -/
  | missing : Readable .code (.code (.expression .missing))
  | declaration {name : String} {type : Option TypeRef} {value : Expression}
      {nameSpan span : Span} :
    IsName name → Readable .code (.code (.expression value)) →
      Readable .code (.code (.expression
        (.written (.declaration (.written (.variableRef name type none) nameSpan) value) span)))
  /-- The three parts of a counting loop, of which the first may be a declaration. -/
  | clauses {items : List Expression} {span : Span} :
    (∀ e ∈ items, Readable .code (.code (.expression e))) →
      Readable .code (.code (.expression (.written (.sequence .clauses items) span)))
  /-- Everything but expressions. -/
  | other {p : Piece} :
    (∀ e, p ≠ .code (.expression e)) → (∀ q, p = .code q → q.Complete) →
      (∀ name ∈ p.names, IsName name) → (∀ q ∈ p.inner, Readable .code q) → Readable .code p

/-! ### Values -/

abbrev Part.IsValue (p : Part) : Prop := (Piece.code p).Readable .value

abbrev Expression.IsValue (e : Expression) : Prop := (Part.expression e).IsValue

/-- All parts of a list are values. -/
def AllValues (ps : List Part) : Prop := ∀ p ∈ ps, p.IsValue

namespace AllValues

variable {p : Part} {ps qs : List Part} {es : List Expression}

theorem nil : AllValues [] := fun _ h => nomatch h

theorem cons (hp : p.IsValue) (hps : AllValues ps) : AllValues (p :: ps) :=
  List.forall_mem_cons.mpr ⟨hp, hps⟩

theorem append (hps : AllValues ps) (hqs : AllValues qs) : AllValues (ps ++ qs) :=
  List.forall_mem_append.mpr ⟨hps, hqs⟩

theorem expressions (h : ∀ e ∈ es, e.IsValue) : AllValues (es.map .expression) :=
  List.forall_mem_map.mpr h

end AllValues

namespace Expression

variable {e : Expression}

theorem isValue_constant (value : Constant) (span : Span) :
    (written (.constant value) span).IsValue := .node trivial AllValues.nil

theorem isValue_variable {name : String} (h : IsName name) (declared : Option TypeRef)
    (span : Span) : (written (.variableRef name declared none) span).IsValue :=
  .node (.inl h) AllValues.nil

theorem isValue_special (special : SpecialCall) (span : Span) :
    (written (.variableRef special.word none none) span).IsValue :=
  .node (.inr ⟨special, rfl⟩) AllValues.nil

theorem IsValue.asCondition (h : e.IsValue) : e.asCondition.IsValue :=
  .node trivial (AllValues.cons h .nil)

end Expression

namespace Piece.Readable

variable {n : Notion} {p : Piece}

/-- A variable that is a value has a name, or it is one of the special words. -/
theorem variableRef (h : p.Readable n) (hn : n = .value) {name : String}
    {declared : Option TypeRef} {origin : Option Origin} {span : Span} {inferred : Option String}
    (hp : p = .code (.expression ⟨.variableRef name declared origin, span, inferred⟩)) :
    IsName name ∨ IsSpecialWord name := by
  cases h with
  | node hnode =>
    cases hp
    exact hnode
  | text | elvis | block => cases hp
  | _ => cases hn

/-- The names in a piece that is no code are names. -/
theorem isName (h : p.Readable n) (hp : ∀ q, p ≠ .code q) : ∀ name ∈ p.names, IsName name := by
  induction h with
  | ofPath _ ih | ofValue _ ih | part _ ih => exact ih hp
  | other _ _ hnames => exact hnames
  | _ => exact absurd rfl (hp _)

/-- What is directly inside a piece that is no code is readable. -/
theorem inner (h : p.Readable n) (hp : ∀ q, p ≠ .code q) : ∀ q ∈ p.inner, q.Readable .code := by
  induction h with
  | ofPath _ ih | ofValue _ ih | part _ ih => exact ih hp
  | other _ _ _ hinner => exact hinner
  | _ => exact absurd rfl (hp _)

/-- What is no other code than a value is present. -/
theorem present (h : p.Readable n) (hn : n ≠ .code) {q : Part} (hq : p = .code q) :
    q.Present := by
  induction h with
  | ofPath _ ih => exact ih nofun hq
  | ofValue _ ih => exact ih nofun hq
  | @node node span hnode =>
    cases hq
    cases node
    case empty => exact hnode.elim
    all_goals rfl
  | part | missing | declaration | clauses | other => exact absurd rfl hn
  | _ =>
    cases hq
    rfl

end Piece.Readable

/-- A statement that is read is code, and not the placeholder for one that is missing. -/
structure Statement.IsRead (s : Statement) : Prop where
  code : (Piece.ofStatement s).Readable .code
  present : (Part.statement s).Present

namespace Grammar

open ScriptOutline.Grammar.Parser

variable {g : Inner}

/-- The notions that contain code of their own kind read values and other code. -/
structure Inner.Readable (g : Inner) : Prop where
  unary : Yields g.unary Expression.IsValue
  expression : Yields g.expression Expression.IsValue
  statement : Yields g.statement Statement.IsRead

/-! ### Names that are read -/

theorem yields_identifier : Yields identifier IsName := by
  have hword : Yields word fun w => w ∉ keywords → IsName w :=
    Yields.satisfy.bind fun first hfirst => Yields.satisfy.many.bind fun others hothers =>
      .pure fun hfree => ⟨⟨first, others, hfirst, hothers, hfree⟩, rfl⟩
  refine (hword.accepted fun w name hw hname => ?_).token
  split at hname
  · cases hname
  · next hfree =>
    obtain rfl := Except.ok.inj hname
    exact hw hfree

theorem yields_typedName : Yields (typedName g) fun binding => IsName binding.name :=
  Yields.orElse (.skip fun _ => yields_identifier.bind fun _ hname => .pure hname)
    (yields_identifier.bind fun _ hname => .pure hname)

/-! ### Literals -/

theorem yields_constantOf (p : Parser Constant) : Yields (constantOf p) Expression.IsValue :=
  .skip fun ⟨value, span⟩ => .pure (Expression.isValue_constant value span)

theorem yields_regex : Yields regex Expression.IsValue :=
  .skip fun ⟨text, span⟩ =>
    .pure (.node trivial (AllValues.cons (Expression.isValue_constant (.string text) span) .nil))

/-- The value of a fragment can be inserted in a text. -/
def Fragment.Readable : Fragment → Prop
  | .char _ => True
  | .value e => (Piece.ofExpression e).Readable .inserted

theorem textOf_readable {fragments : List Fragment} {span : Span}
    (h : ∀ fragment ∈ fragments, fragment.Readable) : (textOf fragments span).IsValue := by
  have hvalue : ∀ v ∈ (splitFragments fragments).2, (Piece.ofExpression v.1).Readable .inserted :=
    fun v hv => h _ (Fragment.value_mem_of_mem_splitFragments hv)
  rw [textOf]
  split
  · exact Expression.isValue_constant _ _
  · next text values _ hsplit =>
    rw [hsplit] at hvalue
    refine .text (by simp) ?_ (List.forall_mem_map.mpr hvalue)
    refine List.forall_mem_cons.mpr ⟨Expression.isValue_constant _ _, ?_⟩
    exact List.forall_mem_map.mpr fun v _ => Expression.isValue_constant _ _

theorem yields_interpolatedExpression (h : g.Readable) :
    Yields (interpolatedExpression g) Expression.IsValue :=
  .skip fun _ => h.expression.bind fun _ he => .skip fun _ => .pure he

/-- The words of a path may be keywords. -/
theorem yields_interpolatedPath :
    Yields interpolatedPath fun e => (Piece.ofExpression e).Readable .path :=
  .skip fun _ => .skip fun ⟨name, span⟩ =>
    Yields.fold_many (.any _) (.word name span) fun _ x hobject _ => .step x.1 _ hobject

theorem yields_fragment (h : g.Readable) : Yields (fragment g) Fragment.Readable := by
  refine Yields.firstOf (.map ?_) ⟨.map ?_, .map ?_, .map ?_⟩
  · exact (yields_interpolatedExpression h).mono fun _ he => .ofValue he
  · exact yields_interpolatedPath.mono fun _ he => .ofPath he
  · exact .any _
  · exact .any _

theorem yields_doubleQuoted (h : g.Readable) : Yields (doubleQuoted g) Expression.IsValue := by
  refine Yields.spanned_bind (.skip fun _ => ?_)
  refine (yields_fragment h).many.bind fun fragments hfragments => .skip fun _ => ?_
  exact .pure fun span => .pure (textOf_readable hfragments)

theorem yields_literal (h : g.Readable) : Yields (literal g) Expression.IsValue :=
  (yields_constantOf _).firstOf
    ⟨yields_constantOf _, (yields_doubleQuoted h).token, yields_regex.token, yields_constantOf _⟩

/-! ### Parameters and closures -/

theorem yields_initialValue (h : g.Readable) :
    Yields (initialValue g) fun value => ∀ e ∈ value, e.IsValue :=
  .optional (.skip fun _ => h.expression)

/-- The parameter has a name, and its default is a value. -/
structure ParameterReadable (p : Parameter) : Prop where
  name : IsName p.name
  value : ∀ e ∈ p.defaultValue, e.IsValue

theorem isName_of_mem_parameters {ps : List Parameter} (h : ∀ p ∈ ps, ParameterReadable p) :
    ∀ name ∈ ps.map Parameter.name, IsName name :=
  List.forall_mem_map.mpr fun p hp => (h p hp).name

theorem isValue_of_mem_defaultValues {ps : List Parameter} (h : ∀ p ∈ ps, ParameterReadable p) :
    ∀ e ∈ defaultValues ps, e.IsValue := by
  intro e he
  obtain ⟨p, hp, hpe⟩ := List.mem_filterMap.mp he
  exact (h p hp).value e hpe

theorem yields_parameter (h : g.Readable) : Yields (parameter g) ParameterReadable :=
  yields_typedName.bind fun _ hname => (yields_initialValue h).bind fun _ hvalue =>
    .pure ⟨hname, hvalue⟩

theorem yields_closure (h : g.Readable) : Yields (closure g) Expression.IsValue := by
  have hparameters : Yields
      (do let parameters ← separated (parameter g) (symbol ",") .refused
          symbol "->"
          pure parameters)
      fun ps => ∀ p ∈ ps, ParameterReadable p :=
    (yields_parameter h).separated.bind fun ps hps => .skip fun _ => .pure hps
  refine Yields.spanned_bind (.skip fun _ => ?_)
  refine hparameters.optional.bind fun parameters hps => ?_
  refine h.statement.many.bind fun statements hss => .skip fun _ => .pure fun span => ?_
  have hall : ∀ p ∈ parameters.getD [], ParameterReadable p := by
    cases parameters with
    | none => exact List.forall_mem_nil _
    | some ps => exact hps ps rfl
  refine .pure (.node (fun p hp => (hall p hp).name) (AllValues.append (.expressions ?_) ?_))
  · exact isValue_of_mem_defaultValues hall
  · exact .cons (.block (fun s hs => (hss s hs).present) fun s hs => (hss s hs).code) .nil

/-! ### Arguments -/

theorem yields_entryKey (h : g.Readable) : Yields (entryKey g) Expression.IsValue :=
  (yields_constantOf _).orElse h.expression.between

theorem yields_mapEntry (h : g.Readable) : Yields (mapEntry g) Expression.IsValue := by
  refine Yields.orElse (Yields.spanned_bind ?_) (Yields.spanned_bind (.skip fun _ => ?_))
  · refine (yields_entryKey h).bind fun key hkey => .skip fun _ => ?_
    exact h.expression.bind fun value hvalue => .pure fun span =>
      .pure (.node trivial (AllValues.cons hkey (.cons hvalue .nil)))
  · exact h.expression.mono fun map hmap span => .pure (.node trivial (AllValues.cons hmap .nil))

theorem yields_spread (h : g.Readable) : Yields (spread g) Expression.IsValue :=
  .spanned_bind (.skip fun _ => h.expression.mono fun _ hitems _ =>
    .pure (.node trivial (AllValues.cons hitems .nil)))

theorem yields_argument (h : g.Readable) :
    Yields (argument g) fun item => item.value.IsValue := by
  refine Yields.orElse (Yields.orElse (.map ?_) (.map ?_)) (.map ?_)
  · exact yields_mapEntry h
  · exact yields_spread h
  · exact h.expression

theorem argumentList_isValue {items : List Argument} {trailing : Option Expression} {span : Span}
    (hitems : ∀ item ∈ items, item.value.IsValue) (htrailing : ∀ e ∈ trailing, e.IsValue) :
    (argumentList items trailing span).IsValue := by
  have hvalues : ∀ e ∈ items.map Argument.value, e.IsValue := List.forall_mem_map.mpr hitems
  have hpositional : ∀ e ∈ positionalOf items ++ trailing.toList, e.IsValue := by
    simp only [List.forall_mem_append, Option.mem_toList]
    exact ⟨fun e he => hvalues e ((positionalOf_sublist items).subset he), htrailing⟩
  have hnamed : ∀ e ∈ namedOf items, e.IsValue :=
    fun e he => hvalues e ((namedOf_sublist items).subset he)
  simp only [argumentList]
  -- named arguments, if there are any, go into one list, and the others may be none
  split
  · exact .node trivial (AllValues.expressions hpositional)
  · next entry entries heq =>
    rw [heq] at hnamed
    have hlist : (Expression.written (.sequence .namedArguments (entry :: entries))
        (entry.span.through ((entry :: entries).getLast (by simp)).span)).IsValue :=
      .node trivial (AllValues.expressions hnamed)
    split
    · exact .node trivial (AllValues.cons hlist .nil)
    · exact .node trivial (AllValues.cons hlist (.expressions hpositional))

theorem yields_arguments (h : g.Readable) : Yields (arguments g) Expression.IsValue := by
  refine Yields.spanned_bind ?_
  refine (yields_argument h).separated.between.bind fun items hitems => ?_
  refine (yields_closure h).optional.bind fun trailing htrailing => ?_
  exact .pure fun span => .pure (argumentList_isValue hitems htrailing)

/-! ### Primaries -/

theorem yields_sizedArray (h : g.Readable) : Yields (sizedArray g) Expression.IsValue := by
  refine Yields.spanned_bind (.skip fun _ => .skip fun _ => ?_)
  refine h.expression.between.many1.bind fun sizes hsizes => .skip fun _ => ?_
  exact .pure fun span => .pure (.node trivial (AllValues.expressions hsizes))

theorem yields_initializedArray (h : g.Readable) :
    Yields (initializedArray g) Expression.IsValue := by
  refine Yields.spanned_bind (.skip fun _ => .skip fun _ => .skip fun _ => ?_)
  refine h.expression.separated.between.bind fun elements helements => ?_
  refine .pure fun span => .pure (.node trivial (AllValues.expressions fun e he => ?_))
  exact helements e (by rwa [List.append_nil] at he)

theorem yields_newObject (h : g.Readable) : Yields (newObject g) Expression.IsValue := by
  refine Yields.spanned_bind (.skip fun _ => .skip fun _ => ?_)
  exact (yields_arguments h).bind fun arguments harguments =>
    .pure fun span => .pure (.node trivial (AllValues.cons harguments .nil))

theorem yields_specialCall (h : g.Readable) : Yields (specialCall g) Expression.IsValue := by
  refine Yields.spanned_bind (.skip fun _ => ?_)
  exact (yields_arguments h).bind fun arguments harguments =>
    .pure fun span => .pure (.node trivial (AllValues.cons harguments .nil))

theorem yields_specialVariable : Yields specialVariable Expression.IsValue :=
  .skip fun ⟨special, span⟩ => .pure (Expression.isValue_special special span)

theorem yields_emptyMap : Yields emptyMap Expression.IsValue :=
  .skip fun _ => .pure (.node trivial AllValues.nil)

theorem yields_map (h : g.Readable) : Yields (map g) Expression.IsValue :=
  .spanned_bind ((yields_mapEntry h).separated1.between.mono fun _ hentries _ =>
    .pure (.node trivial (AllValues.expressions hentries)))

theorem yields_list (h : g.Readable) : Yields (list g) Expression.IsValue :=
  .spanned_bind (((yields_spread h).orElse h.expression).separated.between.mono
    fun _ hitems _ => .pure (.node trivial (AllValues.expressions hitems)))

theorem yields_variableName : Yields variableName Expression.IsValue :=
  .spanned_bind (yields_identifier.mono fun _ hname span =>
    .pure (Expression.isValue_variable hname none span))

theorem yields_primary (h : g.Readable) : Yields (primary g) Expression.IsValue :=
  (yields_literal h).firstOf
    ⟨yields_sizedArray h, yields_initializedArray h, yields_newObject h, yields_specialCall h,
      yields_specialVariable, yields_closure h, yields_emptyMap, yields_map h, yields_list h,
      h.expression.between, yields_variableName⟩

/-! ### Suffixes -/

/-- The method that a suffix names. -/
def Suffix.methodName? : Suffix → Option String
  | .pointer method => some method
  | .member name _ _ => some name
  | _ => none

/-- What a suffix brings along are values, and it names a method by a name. -/
structure Suffix.Readable (suffix : Suffix) : Prop where
  parts : ∀ e ∈ suffix.parts, e.IsValue
  name : ∀ method ∈ suffix.methodName?, IsName method

theorem Suffix.apply_isValue {object : Expression} {suffix : Suffix} {stop : Nat}
    (hobject : object.IsValue) (h : suffix.Readable) : (suffix.apply object stop).IsValue := by
  obtain ⟨hparts, hname⟩ := h
  cases suffix with
  | pointer method => exact .node (hname method rfl) (AllValues.cons hobject .nil)
  | classLiteral =>
    rw [Suffix.apply]
    split
    · exact .node trivial AllValues.nil
    · exact .node trivial (AllValues.cons hobject .nil)
  | member name accessor arguments =>
    cases arguments with
    | none => exact .node trivial (AllValues.cons hobject .nil)
    | some arguments =>
      refine .node ⟨hname name rfl, by simp⟩ (AllValues.cons hobject (.cons ?_ .nil))
      exact hparts arguments List.mem_cons_self
  | call arguments =>
    have harguments : arguments.IsValue := hparts arguments List.mem_cons_self
    rw [Suffix.apply]
    split
    · next name declared origin hnode =>
      split
      · exact .node ⟨isName_call, by simp⟩ (AllValues.cons hobject (.cons harguments .nil))
      · next hspecial =>
        -- the variable is the method, and the receiver that is not named is the variable `this`
        obtain ⟨node, span, inferred⟩ := object
        obtain rfl : node = .variableRef name declared origin := hnode
        have hmethod : IsName name := by
          rcases hobject.variableRef rfl rfl with hname | ⟨special, rfl⟩
          · exact hname
          · cases special <;> simp [SpecialCall.word] at hspecial
        refine .node ⟨hmethod, fun _ => rfl⟩ (AllValues.cons ?_ (.cons harguments .nil))
        exact Expression.isValue_special .own _
    · exact .node ⟨isName_call, by simp⟩ (AllValues.cons hobject (.cons harguments .nil))
  | index position =>
    exact .node trivial
      (AllValues.cons hobject (.cons (hparts position List.mem_cons_self) .nil))
  | _ => exact .node trivial (AllValues.cons hobject .nil)

theorem yields_memberName : Yields memberName fun x => IsName x.1 :=
  .spanned_bind (yields_identifier.mono fun _ hname _ => .pure hname)

theorem yields_memberArguments (h : g.Readable) :
    Yields (memberArguments g) Expression.IsValue :=
  (yields_arguments h).orElse (.spanned_bind ((yields_closure h).mono fun _ he _ =>
    .pure (.node trivial (AllValues.cons he .nil))))

theorem yields_memberSuffix (h : g.Readable) :
    Yields (memberSuffix g) fun x => x.1.Readable := by
  refine .skip fun _ => yields_memberName.bind fun name hname => ?_
  refine (yields_memberArguments h).optional.bind fun _ harguments => .pure ⟨?_, ?_⟩
  · exact fun e he => harguments e (Option.mem_toList.mp he)
  · exact fun _ hmethod => Option.some.inj hmethod ▸ hname

theorem yields_suffix (h : g.Readable) : Yields (suffix g) fun x => x.1.Readable := by
  refine Yields.firstOf (.skip fun _ => yields_memberName.bind fun name hname => ?_)
    ⟨.skip fun _ => .skip fun _ => ?_, .skip fun _ => ?_, yields_memberSuffix h, ?_, ?_,
      .skip fun _ => ?_⟩
  · exact .pure ⟨List.forall_mem_nil _, fun _ hmethod => Option.some.inj hmethod ▸ hname⟩
  · exact .pure ⟨List.forall_mem_nil _, nofun⟩
  · exact .pure ⟨List.forall_mem_nil _, nofun⟩
  · exact (yields_arguments h).bind fun arguments harguments =>
      .pure ⟨List.forall_mem_singleton.mpr harguments, nofun⟩
  · exact Yields.spanned_bind (h.expression.between.mono fun index hindex span =>
      .pure ⟨List.forall_mem_singleton.mpr hindex, nofun⟩)
  · exact .pure ⟨List.forall_mem_nil _, nofun⟩

theorem yields_suffixed (h : g.Readable) : Yields (suffixed g) Expression.IsValue :=
  (yields_primary h).bind fun _ hobject =>
    (yields_suffix h).fold_many hobject fun _ _ hobject hsuffix =>
      Suffix.apply_isValue hobject hsuffix

/-! ### Operators before and after an operand -/

theorem yields_cast (h : g.Readable) : Yields (cast g) Expression.IsValue :=
  .spanned_bind (.skip fun _ => h.unary.bind fun _ hoperand => .pure fun _ =>
    .pure (.node trivial (AllValues.cons hoperand .nil)))

theorem prefixed_isValue {operation : String} {operand : Expression} {span : Span}
    (h : operand.IsValue) : (Expression.written (prefixed operation operand) span).IsValue := by
  refine .node ?_ ?_
  · rw [prefixed]
    repeat' split
    all_goals trivial
  · rw [inner_prefixed]
    exact AllValues.cons h .nil

theorem yields_unary (h : g.Readable) : Yields (unary g) Expression.IsValue := by
  refine ((yields_cast h).orElse (yields_suffixed h)).orElse
    (Yields.spanned_bind (.skip fun _ => ?_))
  exact h.unary.bind fun _ hoperand => .pure fun _ => .pure (prefixed_isValue hoperand)

theorem yields_coerced (h : g.Readable) : Yields (coerced g) Expression.IsValue :=
  (yields_unary h).bind fun _ hoperand =>
    Yields.fold_many (.any _) hoperand fun _ _ hoperand _ =>
      .node trivial (AllValues.cons hoperand .nil)

/-! ### Binary operators -/

theorem binaryOf_isValue {left right : Expression} {operation : String} (hleft : left.IsValue)
    (hright : right.IsValue) : (binaryOf left operation right).IsValue :=
  .node trivial (AllValues.cons hleft (.cons hright .nil))

theorem yields_chain {operand : Parser Expression} {others : Parser (String × Expression)}
    (hoperand : Yields operand Expression.IsValue)
    (hothers : Yields others fun x => x.2.IsValue) :
    Yields (chain operand others) Expression.IsValue :=
  hoperand.bind fun _ hfirst =>
    hothers.fold_many hfirst fun _ _ hleft hright => binaryOf_isValue hleft hright

theorem yields_round {operand : Parser Expression} (operator : Parser String)
    (hoperand : Yields operand Expression.IsValue) :
    Yields (do let operation ← operator; let right ← operand; pure (operation, right))
      fun x => x.2.IsValue :=
  .skip fun _ => hoperand.bind fun _ hright => .pure hright

theorem yields_tier {operand : Parser Expression} (operator : Parser String)
    (hoperand : Yields operand Expression.IsValue) :
    Yields (tier operand operator) Expression.IsValue :=
  yields_chain hoperand (yields_round operator hoperand)

theorem yields_shift (h : g.Readable) : Yields (shift g) Expression.IsValue :=
  yields_tier _ (yields_tier _ (yields_tier _ (yields_tier _ (yields_coerced h))))

theorem yields_range (h : g.Readable) : Yields (range g) Expression.IsValue := by
  have hlast : Yields
      (do let inclusive ← orElse (do symbol "..<"; pure false) (do symbol ".."; pure true)
          let last ← shift g
          pure (inclusive, last))
      fun x => x.2.IsValue :=
    .skip fun _ => (yields_shift h).bind fun _ hlast => .pure hlast
  refine (yields_shift h).bind fun first hfirst => hlast.optional.bind fun last hlast => ?_
  cases last with
  | none => exact .pure hfirst
  | some last =>
    exact .pure (.node trivial (AllValues.cons hfirst (.cons (hlast last rfl) .nil)))

theorem yields_relational (h : g.Readable) : Yields (relational g) Expression.IsValue := by
  refine yields_chain (yields_range h) ((yields_round _ (yields_range h)).orElse ?_)
  exact .skip fun _ => .skip fun _ => .pure (.node trivial AllValues.nil)

theorem yields_logicalOr (h : g.Readable) : Yields (logicalOr g) Expression.IsValue :=
  yields_tier _ (yields_tier _ (yields_tier _ (yields_tier _ (yields_tier _ (yields_tier _
    (yields_relational h))))))

/-! ### Conditionals and assignments -/

theorem yields_conditionalBranches (h : g.Readable) : Yields (conditionalBranches g)
    fun branches => (∀ e ∈ branches.1, e.IsValue) ∧ branches.2.IsValue := by
  refine Yields.orElse (.skip fun _ => ?_) (.skip fun _ => ?_)
  · exact h.expression.bind fun otherwise ho => .pure ⟨by simp, ho⟩
  · refine h.expression.bind fun whenTrue ht => .skip fun _ => ?_
    refine h.expression.bind fun whenFalse hf => .pure ⟨?_, hf⟩
    rintro e ⟨rfl⟩
    exact ht

theorem yields_conditional (h : g.Readable) : Yields (conditional g) Expression.IsValue := by
  refine (yields_logicalOr h).bind fun condition hc => ?_
  refine (yields_conditionalBranches h).optional.bind fun branches hb => ?_
  match branches with
  | none => exact .pure hc
  | some (some whenTrue, whenFalse) =>
    obtain ⟨ht, hf⟩ := hb _ rfl
    exact .pure (.node trivial
      (AllValues.cons hc.asCondition (.cons (ht _ rfl) (.cons hf .nil))))
  | some (none, otherwise) =>
    obtain ⟨-, ho⟩ := hb _ rfl
    exact .pure (.elvis hc ho)

theorem yields_expression (h : g.Readable) : Yields (expression g) Expression.IsValue := by
  refine (yields_conditional h).bind fun target ht => ?_
  refine (yields_round _ h.expression).optional.bind fun assigned ha => ?_
  match assigned with
  | none => exact .pure ht
  | some (operation, value) => exact .pure (binaryOf_isValue ht (ha _ rfl))

end Grammar

end ScriptOutline
