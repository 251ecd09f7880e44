/-
ScriptOutline/Proofs/Span.lean

The spans of expressions.  Each rule of the grammar, over inner rules that are sound
(`Inner.Sound`), puts what it reads in its place: `Places size (rule g) Expression.Stands`.  A
proof about a rule follows the rule.

Spans are made in four ways, and there is a lemma for each: what is read as a whole
(`Expression.Stands.whole`), operands with an operator between them (`Expression.Stands.through`),
suffixes behind an object (`Expression.Stands.extend`), and the named arguments of a call, from
the first to the last of them (`namedArguments_stand`).  Chains of operators and suffixes are
folds over what a repetition read (`leads_fold_many`).
-/
import Mathlib.Data.List.Pairwise
import ScriptOutline.Grammar.Statement
import ScriptOutline.Proofs.Advance
import ScriptOutline.Proofs.Place

namespace ScriptOutline.Grammar

open ScriptOutline.Grammar.Parser

variable {size : Nat} {g : Inner}

/-- The four notions that contain one another go forward, and their code is in its place. -/
structure Inner.Sound (size : Nat) (g : Inner) : Prop where
  classType : Advances size g.classType
  unary : Places size g.unary Expression.Stands
  expression : Places size g.expression Expression.Stands
  statement : Places size g.statement Statement.Stands

theorem widens_expression : Widens Expression.Stands :=
  fun _ _ _ _ _ hstart hstop h => h.widen hstart hstop

theorem widens_statement : Widens Statement.Stands :=
  fun _ _ _ _ _ hstart hstop h => h.widen hstart hstop

/-! ### Types and names -/

theorem advances_classType (h : g.Sound size) : Advances size (classType g) := by
  refine advances_identifier.then fun head => ?_
  have htail : Places size (do exactly ['.']; identifier) fun _ _ _ => True :=
    (places_exactly ['.']).forward.bind_forward fun _ => advances_identifier.forward
  have harguments : Places size (separated g.classType (symbol ",") .refused) fun _ _ _ => True :=
    (Places.separated widens_lt (advances_symbol "," rfl).forward h.classType).forward
  have hgeneric := Places.between widens_true (advances_symbol "<" rfl) (advances_symbol ">" rfl)
    harguments
  exact (Places.many widens_true htail).forward.bind_forward fun tail =>
    hgeneric.optional.forward.bind_forward fun _ => Places.pure_forward _

theorem advances_emptyBrackets : Advances size emptyBrackets :=
  (advances_symbol "[" rfl).then fun _ => (advances_symbol "]" rfl).forward

theorem advances_typeName (h : g.Sound size) : Advances size (typeName g) :=
  (advances_classType h).then fun _ =>
    (Places.many widens_lt advances_emptyBrackets).forward.bind_forward fun _ =>
      Places.pure_forward _

theorem advances_declaredType (h : g.Sound size) : Advances size (declaredType g) :=
  ((advances_keyword "def").then fun _ => Places.pure_forward _).orElse (advances_typeName h)

theorem advances_typedName (h : g.Sound size) : Advances size (typedName g) :=
  ((advances_declaredType h).then fun _ =>
    advances_identifier.forward.bind_forward fun _ => Places.pure_forward _).orElse
    (advances_identifier.then fun _ => Places.pure_forward _)

/-! ### Literals -/

theorem places_constantOf {p : Parser Constant} (hp : Advances size p) :
    Places size (constantOf p) Expression.Stands := fun start =>
  Leads.spanned_bind ((hp start).mono fun _ _ _ _ hlt => ⟨hlt, Leads.pure (.whole hlt .nil)⟩)

theorem advances_namedConstant : Advances size namedConstant :=
  (((advances_keyword "true").then fun _ => Places.pure_forward _).orElse
    ((advances_keyword "false").then fun _ => Places.pure_forward _)).orElse
    ((advances_keyword "null").then fun _ => Places.pure_forward _)

theorem places_regex : Places size regex Expression.Stands := fun start => by
  refine Leads.spanned_bind ((advances_pattern start).mono fun text stop _ _ hlt => ?_)
  exact ⟨hlt, Leads.pure (.whole hlt (.cons (Expression.Stands.whole hlt .nil) .nil))⟩

/-- The value of a fragment stands between two positions. -/
def Fragment.Stands (start : Nat) (fragment : Fragment) (stop : Nat) : Prop :=
  match fragment with
  | .char _ => True
  | .value e => e.Stands start stop

theorem Fragment.widens_stands : Widens Fragment.Stands := by
  rintro start start' (c | e) stop stop' hstart hstop h
  · trivial
  · exact Piece.Stands.widen h hstart hstop

theorem Fragment.value_mem_of_mem_splitFragments {fragments : List Fragment}
    {v : Expression × List Char} (h : v ∈ (splitFragments fragments).2) :
    .value v.1 ∈ fragments := by
  induction fragments with
  | nil => simp [splitFragments] at h
  | cons fragment fragments ih =>
    cases fragment with
    | char c => exact List.mem_cons_of_mem _ (ih h)
    | value e =>
      rcases List.mem_cons.mp h with rfl | h
      · exact List.mem_cons_self
      · exact List.mem_cons_of_mem _ (ih h)

/-- The texts between the values span all of the text that they are in. -/
theorem textOf_stands {fragments : List Fragment} {start stop : Nat} (hlt : start < stop)
    (h : ∀ fragment ∈ fragments, fragment.Stands start stop) :
    (textOf fragments ⟨start, stop⟩).Stands start stop := by
  have hconstant (cs : List Char) : Expression.Stands start
      (.written (.constant (.string (String.ofList cs))) ⟨start, stop⟩) stop := .whole hlt .nil
  have hvalue : ∀ v ∈ (splitFragments fragments).2, v.1.Stands start stop := fun v hv =>
    h _ (Fragment.value_mem_of_mem_splitFragments hv)
  rw [textOf]
  split
  · exact hconstant _
  · next text values _ hsplit =>
    rw [hsplit] at hvalue
    refine .whole hlt (.expressions ?_)
    simp only [List.mem_append, List.mem_cons, List.mem_map]
    rintro e ((rfl | ⟨v, -, rfl⟩) | ⟨v, hv, rfl⟩)
    · exact hconstant _
    · exact hconstant _
    · exact hvalue v hv

theorem places_interpolatedExpression (h : g.Sound size) :
    Places size (interpolatedExpression g) Expression.Stands := fun start =>
  (places_exactly _ start).bind fun _ pos hle _ =>
    (h.expression pos).bind fun _ stop _ he =>
      (places_exactly _ stop).bind fun _ _ hle' _ => Leads.pure (he.widen hle hle')

theorem places_interpolatedPath : Places size interpolatedPath Expression.Stands := fun start => by
  refine (places_exactly ['$'] start).bind fun _ pos hle _ => ?_
  refine Leads.spanned_bind ((advances_word pos).mono fun name stop hpos _ hlt => ⟨hlt, ?_⟩)
  have hmember : Places size (do exactly ['.']; spanned word)
      fun _ x stop => x.2.stop = stop := fun start =>
    (places_exactly ['.'] start).bind fun _ pos _ _ =>
      (advances_word.spanned pos).mono fun _ _ _ _ hspan => congrArg Span.stop hspan.2
  refine leads_fold_many hmember (.of_inner hle hlt (Nat.le_refl _) .nil) ?_
  rintro object pos ⟨name, span⟩ stop hle hobject rfl
  refine Expression.Stands.extend hobject hle (Nat.le_refl _) ?_
  simp [ExpressionNode.inner, ExpressionNode.children]

theorem places_fragment (h : g.Sound size) : Places size (fragment g) Fragment.Stands := by
  refine Places.firstOf (Places.map ?_) ⟨Places.map ?_, Places.map ?_, Places.map ?_⟩
  · exact places_interpolatedExpression h
  · exact places_interpolatedPath
  · exact advances_escape.mono fun _ _ _ _ _ _ => trivial
  · exact (advances_satisfy _).mono fun _ _ _ _ _ _ => trivial

theorem places_doubleQuoted (h : g.Sound size) :
    Places size (doubleQuoted g) Expression.Stands := fun start => by
  refine Leads.spanned_bind ?_
  refine (advances_exactly (by simp) start).bind fun _ p₁ hle₁ hlt => ?_
  refine (Places.many Fragment.widens_stands (places_fragment h) p₁).bind
    fun fragments p₂ hle₂ hf => ?_
  refine (places_exactly _ p₂).bind fun _ stop hle₃ _ => ?_
  have hlt : start < stop := by omega
  refine Leads.pure ⟨hlt, Leads.pure (textOf_stands hlt fun fragment hmem => ?_)⟩
  exact Fragment.widens_stands hle₁ hle₃ (hf fragment hmem)

theorem places_literal (h : g.Sound size) : Places size (literal g) Expression.Stands :=
  (places_constantOf (Places.token widens_lt advances_number)).firstOf
    ⟨places_constantOf (Advances.map (Places.token widens_lt advances_quoted) _),
      Places.token widens_expression (places_doubleQuoted h),
      Places.token widens_expression places_regex,
      places_constantOf advances_namedConstant⟩

/-! ### Parameters and closures -/

theorem places_initialValue (h : g.Sound size) : Places size (initialValue g)
    fun start value stop => ∀ e ∈ value, e.Stands start stop :=
  Places.optional fun start =>
    (((advances_symbol "=" rfl).before widens_expression h.expression) start).mono
      fun _ _ _ _ he => he.2

/-- The default value of a parameter stands between two positions. -/
def ParameterStands (start : Nat) (p : Parameter) (stop : Nat) : Prop :=
  ∀ e ∈ p.defaultValue, e.Stands start stop

theorem widens_parameter : Widens ParameterStands :=
  fun _ _ _ _ _ hstart hstop h e he => (h e he).widen hstart hstop

theorem stands_of_mem_defaultValues {start stop : Nat} {ps : List Parameter}
    (h : ∀ p ∈ ps, ParameterStands start p stop) :
    ∀ e ∈ defaultValues ps, e.Stands start stop := by
  intro e he
  obtain ⟨p, hp, hpe⟩ := List.mem_filterMap.mp he
  exact h p hp e hpe

theorem places_parameter (h : g.Sound size) : Places size (parameter g) ParameterStands :=
  fun start => (advances_typedName h start).bind fun _ pos hle _ =>
    (places_initialValue h pos).bind fun _ _ _ hvalue => Leads.pure fun e he =>
      (hvalue e he).widen hle (Nat.le_refl _)

/-- A block that spans all that was read for it stands there if its statements do. -/
theorem blockOf_stands {start stop : Nat} {statements : List Statement} (hlt : start < stop)
    (h : ∀ s ∈ statements, s.Stands start stop) :
    (blockOf statements ⟨start, stop⟩).Stands start stop :=
  Part.Stands.intro (Nat.le_refl _) hlt (Nat.le_refl _) fun q hq => by
    obtain ⟨s, hs, rfl⟩ := List.mem_map.mp hq
    exact .inr (h s hs)

theorem places_closure (h : g.Sound size) :
    Places size (closure g) Expression.Stands := fun start => by
  refine Leads.spanned_bind ?_
  refine ((advances_symbol "\x7b" rfl) start).bind fun _ p₁ hle₁ hlt => ?_
  have hparameters : Places size
      (do let parameters ← separated (parameter g) (symbol ",") .refused
          symbol "->"
          pure parameters)
      fun start ps stop => ∀ p ∈ ps, ParameterStands start p stop := fun start => by
    refine (Places.separated widens_parameter (advances_symbol "," rfl).forward (places_parameter h)
      start).bind fun ps pos _ hps => ?_
    exact ((advances_symbol "->" rfl) pos).bind fun _ _ hle _ =>
      Leads.pure fun p hp => widens_parameter (Nat.le_refl _) hle (hps p hp)
  refine (Places.optional hparameters p₁).bind fun parameters p₂ hle₂ hps => ?_
  refine (Places.many widens_statement h.statement p₂).bind fun statements p₃ hle₃ hss => ?_
  refine ((advances_symbol "\x7d" rfl) p₃).bind fun _ stop hle₄ _ => ?_
  have hlt : start < stop := by omega
  refine Leads.pure ⟨hlt, Leads.pure (.whole hlt (.append (.expressions ?_) (.cons ?_ .nil)))⟩
  · refine stands_of_mem_defaultValues fun p hp => ?_
    obtain ⟨ps, hmem, hp⟩ : ∃ ps ∈ parameters, p ∈ ps := by
      cases parameters with
      | none => simp at hp
      | some ps => exact ⟨ps, rfl, hp⟩
    exact widens_parameter hle₁ (hle₃.trans hle₄) (hps ps hmem p hp)
  · exact blockOf_stands hlt fun s hs => (hss s hs).widen (hle₁.trans hle₂) hle₄

/-! ### Arguments -/

/-- An expression between two signs. -/
theorem places_inBrackets (h : g.Sound size) {opening closing : String}
    (ho : Advances size (symbol opening)) (hc : Advances size (symbol closing)) :
    Places size (between opening g.expression closing) Expression.Stands :=
  (Places.between widens_expression ho hc h.expression).mono fun _ _ _ _ _ he => he.2

theorem places_entryKey (h : g.Sound size) : Places size (entryKey g) Expression.Stands := by
  have hword : Advances size (Parser.firstOf (Constant.string <$> identifier)
      [Constant.string <$> token quoted, token number]) :=
    Places.firstOf (advances_identifier.map _)
      ⟨Advances.map (Places.token widens_lt advances_quoted) _,
        Places.token widens_lt advances_number⟩
  exact (places_constantOf hword).orElse
    (places_inBrackets h (advances_symbol "(" rfl) (advances_symbol ")" rfl))

theorem places_mapEntry (h : g.Sound size) : Places size (mapEntry g) Expression.Stands := by
  intro start
  refine Leads.orElse (Leads.spanned_bind ?_) (Leads.spanned_bind ?_)
  · refine (places_entryKey h start).bind fun key p₁ hle₁ hkey => ?_
    refine ((advances_symbol ":" rfl) p₁).bind fun _ p₂ hle₂ _ => ?_
    refine (h.expression p₂).bind fun value stop hle₃ hvalue => ?_
    have hlt : start < stop := by omega
    refine Leads.pure ⟨hlt, Leads.pure (.whole hlt (.cons ?_ (.cons ?_ .nil)))⟩
    · exact hkey.widen (Nat.le_refl _) (hle₂.trans hle₃)
    · exact hvalue.widen (hle₁.trans hle₂) (Nat.le_refl _)
  · refine ((advances_symbol "*:" rfl).before widens_expression h.expression start).mono ?_
    rintro value stop - - ⟨hlt, hvalue⟩
    exact ⟨hlt, Leads.pure (.whole hlt (.cons hvalue .nil))⟩

theorem places_spread (h : g.Sound size) : Places size (spread g) Expression.Stands := by
  intro start
  refine Leads.spanned_bind ?_
  refine ((advances_symbol "*" rfl).before widens_expression h.expression start).mono ?_
  rintro value stop - - ⟨hlt, hvalue⟩
  exact ⟨hlt, Leads.pure (.whole hlt (.cons hvalue .nil))⟩

/-- Neither begins nor ends later. -/
def Precedes (a b : Expression) : Prop :=
  a.span.start ≤ b.span.start ∧ a.span.stop ≤ b.span.stop

instance : Std.Refl Precedes := ⟨fun _ => ⟨Nat.le_refl _, Nat.le_refl _⟩⟩

/-- Expressions stand between two positions, one behind the other. -/
structure InOrder (start : Nat) (es : List Expression) (stop : Nat) : Prop where
  le : start ≤ stop
  stands : ∀ e ∈ es, e.Stands start stop
  pairwise : es.Pairwise Precedes

namespace InOrder

variable {start pos stop : Nat} {e : Expression} {es fs : List Expression}

theorem nil : InOrder start [] start := ⟨Nat.le_refl _, fun _ h => (nomatch h), .nil⟩

theorem widen {start' : Nat} (h : InOrder start es pos) (hstart : start' ≤ start)
    (hstop : pos ≤ stop) : InOrder start' es stop :=
  ⟨hstart.trans (h.le.trans hstop), fun e he => (h.stands e he).widen hstart hstop, h.pairwise⟩

theorem concat (h : InOrder start es pos) (he : e.Stands pos stop) :
    InOrder start (es ++ [e]) stop := by
  have hle : pos ≤ stop := he.lt.le
  refine ⟨h.le.trans hle, ?_, ?_⟩
  · simp only [List.forall_mem_append, List.forall_mem_singleton]
    exact ⟨(h.widen (Nat.le_refl _) hle).stands, he.widen h.le (Nat.le_refl _)⟩
  · refine List.pairwise_append.mpr ⟨h.pairwise, List.pairwise_singleton _ _, fun a ha b hb => ?_⟩
    obtain rfl := List.mem_singleton.mp hb
    have ha := h.stands a ha
    have hstart : a.span.start < a.span.stop := ha.nonempty
    have hstop : a.span.stop ≤ pos := ha.le_stop
    have hnext : pos ≤ b.span.start := he.start_le
    have hend : b.span.start < b.span.stop := he.nonempty
    exact ⟨by omega, by omega⟩

theorem sublist (h : InOrder start es stop) (hsub : fs.Sublist es) : InOrder start fs stop :=
  ⟨h.le, fun e he => h.stands e (hsub.subset he), h.pairwise.sublist hsub⟩

/-- All of them stand between the start of the first one and the end of the last one. -/
theorem through (h : InOrder start (e :: es) stop) :
    ∀ x ∈ e :: es, x.Stands e.span.start ((e :: es).getLast (by simp)).span.stop := fun x hx =>
  have hfirst : Precedes e x := h.pairwise.rel_head hx
  have hlast : Precedes x ((e :: es).getLast (by simp)) := h.pairwise.rel_getLast hx
  (h.stands x hx).own.widen hfirst.1 hlast.2

end InOrder

def Argument.value : Argument → Expression
  | .named entry => entry
  | .positional value => value

theorem namedOf_sublist (items : List Argument) :
    (namedOf items).Sublist (items.map Argument.value) := by
  induction items with
  | nil => exact .slnil
  | cons item items ih =>
    cases item with
    | named entry => exact ih.cons_cons entry
    | positional value => exact ih.cons value

theorem positionalOf_sublist (items : List Argument) :
    (positionalOf items).Sublist (items.map Argument.value) := by
  induction items with
  | nil => exact .slnil
  | cons item items ih =>
    cases item with
    | named entry => exact ih.cons entry
    | positional value => exact ih.cons_cons value

/-- The list of the named arguments spans them from the first to the last one. -/
theorem namedArguments_stand {start stop : Nat} {entry : Expression} {entries : List Expression}
    (h : InOrder start (entry :: entries) stop) :
    Expression.Stands start (.written (.sequence .namedArguments (entry :: entries))
      (entry.span.through ((entry :: entries).getLast (by simp)).span)) stop := by
  have hfirst := h.through entry List.mem_cons_self
  exact .of_inner (h.stands entry List.mem_cons_self).start_le hfirst.lt
    (h.stands _ (List.getLast_mem _)).le_stop (.expressions h.through)

theorem argumentList_stands {start stop : Nat} {items : List Argument}
    {trailing : Option Expression} (hlt : start < stop)
    (hitems : InOrder start (items.map Argument.value) stop)
    (htrailing : ∀ e ∈ trailing, e.Stands start stop) :
    (argumentList items trailing ⟨start, stop⟩).Stands start stop := by
  have hpositional : ∀ e ∈ positionalOf items ++ trailing.toList, e.Stands start stop := by
    simp only [List.forall_mem_append, Option.mem_toList]
    exact ⟨(hitems.sublist (positionalOf_sublist items)).stands, htrailing⟩
  have hnamed := hitems.sublist (namedOf_sublist items)
  simp only [argumentList]
  split
  · exact .whole hlt (.expressions hpositional)
  · next entry entries heq =>
    rw [heq] at hnamed
    have hlist := namedArguments_stand hnamed
    split
    · exact .whole hlt (.cons hlist .nil)
    · exact .whole hlt (.cons hlist (.expressions hpositional))

theorem places_argument (h : g.Sound size) : Places size (argument g)
    fun start item stop => item.value.Stands start stop := by
  refine Places.orElse (Places.orElse (Places.map ?_) (Places.map ?_)) (Places.map ?_)
  · exact places_mapEntry h
  · exact places_spread h
  · exact h.expression

theorem places_arguments (h : g.Sound size) : Places size (arguments g) Expression.Stands := by
  intro start
  refine Leads.spanned_bind ?_
  have hitems : Places size (separated (argument g) (symbol ",") .allowed)
      fun start items stop => InOrder start (items.map Argument.value) stop := fun start => by
    refine Leads.separated (advances_symbol "," rfl).forward ?_ .nil fun items pos hitems => ?_
    · exact fun items pos pos' hitems hle => hitems.widen (Nat.le_refl _) hle
    · refine (places_argument h pos).mono fun item stop _ _ hitem => ?_
      simpa only [List.map_append, List.map_singleton] using hitems.concat hitem
  have hwide : Widens fun start (items : List Argument) stop =>
      InOrder start (items.map Argument.value) stop :=
    fun _ _ _ _ _ hstart hstop hitems => hitems.widen hstart hstop
  have hbetween := Places.between hwide (advances_symbol "(" rfl) (advances_symbol ")" rfl) hitems
  refine (hbetween start).bind fun items p₁ hle₁ ⟨hlt, horder⟩ => ?_
  refine (Places.optional (places_closure h) p₁).bind fun trailing stop hle₂ htrailing => ?_
  have hlt : start < stop := by omega
  have horder := horder.widen (Nat.le_refl _) hle₂
  refine Leads.pure ⟨hlt, Leads.pure (argumentList_stands hlt horder fun e he => ?_)⟩
  exact (htrailing e he).widen hle₁ (Nat.le_refl _)

/-! ### Primaries -/

theorem places_sizedArray (h : g.Sound size) : Places size (sizedArray g) Expression.Stands := by
  intro start
  refine Leads.spanned_bind ?_
  refine (advances_keyword "new" start).bind fun _ p₁ hle₁ hlt => ?_
  refine (advances_classType h p₁).bind fun type p₂ hle₂ _ => ?_
  have hsize := places_inBrackets h (advances_symbol "[" rfl) (advances_symbol "]" rfl)
  refine (Places.many1 widens_expression hsize p₂).bind fun sizes p₃ hle₃ hsizes => ?_
  refine (Places.many widens_lt advances_emptyBrackets p₃).bind fun _ stop hle₄ _ => ?_
  have hlt : start < stop := by omega
  refine Leads.pure ⟨hlt, Leads.pure (.whole hlt (.expressions fun e he => ?_))⟩
  exact (hsizes e he).widen (by omega) hle₄

theorem places_initializedArray (h : g.Sound size) :
    Places size (initializedArray g) Expression.Stands := by
  intro start
  refine Leads.spanned_bind ?_
  refine (advances_keyword "new" start).bind fun _ p₁ hle₁ hlt => ?_
  refine (advances_classType h p₁).bind fun type p₂ hle₂ _ => ?_
  refine (Places.many1 widens_lt advances_emptyBrackets p₂).bind fun dimensions p₃ hle₃ _ => ?_
  have helements : Places size (separated g.expression (symbol ",") .allowed)
      fun start es stop => ∀ e ∈ es, e.Stands start stop :=
    Places.separated widens_expression (advances_symbol "," rfl).forward h.expression
  refine (Places.between (widens_all widens_expression) (advances_symbol "\x7b" rfl)
    (advances_symbol "\x7d" rfl) helements p₃).bind fun elements stop hle₄ ⟨_, helements⟩ => ?_
  have hlt : start < stop := by omega
  refine Leads.pure ⟨hlt, Leads.pure (.whole hlt (.expressions fun e he => ?_))⟩
  rw [List.append_nil] at he
  exact (helements e he).widen (by omega) (Nat.le_refl _)

theorem places_newObject (h : g.Sound size) : Places size (newObject g) Expression.Stands := by
  intro start
  refine Leads.spanned_bind ?_
  refine (advances_keyword "new" start).bind fun _ p₁ hle₁ hlt => ?_
  refine (advances_classType h p₁).bind fun type p₂ hle₂ _ => ?_
  refine (places_arguments h p₂).bind fun arguments stop hle₃ harguments => ?_
  have hlt : start < stop := by omega
  refine Leads.pure ⟨hlt, Leads.pure (.whole hlt (.cons ?_ .nil))⟩
  exact harguments.widen (by omega) (Nat.le_refl _)

theorem advances_specialWord : Advances size specialWord :=
  ((advances_keyword "this").then fun _ => Places.pure_forward _).orElse
    ((advances_keyword "super").then fun _ => Places.pure_forward _)

theorem places_specialCall (h : g.Sound size) : Places size (specialCall g) Expression.Stands := by
  intro start
  refine Leads.spanned_bind ?_
  refine (advances_specialWord start).bind fun special p₁ hle₁ hlt => ?_
  refine (places_arguments h p₁).bind fun arguments stop hle₂ harguments => ?_
  have hlt : start < stop := by omega
  refine Leads.pure ⟨hlt, Leads.pure (.whole hlt (.cons ?_ .nil))⟩
  exact harguments.widen (by omega) (Nat.le_refl _)

theorem places_specialVariable : Places size specialVariable Expression.Stands := fun start =>
  Leads.spanned_bind ((advances_specialWord start).mono fun _ _ _ _ hlt =>
    ⟨hlt, Leads.pure (.whole hlt .nil)⟩)

theorem places_emptyMap : Places size emptyMap Expression.Stands := fun start => by
  have hsigns : Advances size (do symbol "["; symbol ":"; symbol "]") :=
    (advances_symbol "[" rfl).then fun _ =>
      (advances_symbol ":" rfl).forward.bind_forward fun _ => (advances_symbol "]" rfl).forward
  exact Leads.spanned_bind ((hsigns start).mono fun _ _ _ _ hlt =>
    ⟨hlt, Leads.pure (.whole hlt .nil)⟩)

/-- Items in square brackets stand inside the expression that is made of them. -/
theorem places_inSquareBrackets (form : Sequence) {items : Parser (List Expression)}
    (h : Places size items fun start es stop => ∀ e ∈ es, e.Stands start stop) :
    Places size (do
      let (es, span) ← spanned (between "[" items "]")
      pure (.written (.sequence form es) span)) Expression.Stands := by
  intro start
  have hbetween := Places.between (widens_all widens_expression) (advances_symbol "[" rfl)
    (advances_symbol "]" rfl) h
  refine Leads.spanned_bind ((hbetween start).mono fun es stop _ _ ⟨hlt, hes⟩ =>
    ⟨hlt, Leads.pure ?_⟩)
  exact .whole hlt (.expressions hes)

theorem places_map (h : g.Sound size) : Places size (map g) Expression.Stands :=
  places_inSquareBrackets .map
    (Places.separated1 widens_expression (advances_symbol "," rfl).forward (places_mapEntry h))

theorem places_list (h : g.Sound size) : Places size (list g) Expression.Stands :=
  places_inSquareBrackets .list
    (Places.separated widens_expression (advances_symbol "," rfl).forward
      ((places_spread h).orElse h.expression))

theorem places_variableName : Places size variableName Expression.Stands := fun start =>
  Leads.spanned_bind ((advances_identifier start).mono fun _ _ _ _ hlt =>
    ⟨hlt, Leads.pure (.whole hlt .nil)⟩)

theorem places_primary (h : g.Sound size) : Places size (primary g) Expression.Stands :=
  (places_literal h).firstOf
    ⟨places_sizedArray h, places_initializedArray h, places_newObject h, places_specialCall h,
      places_specialVariable, places_closure h, places_emptyMap, places_map h, places_list h,
      places_inBrackets h (advances_symbol "(" rfl) (advances_symbol ")" rfl), places_variableName⟩

/-! ### Suffixes -/

/-- The expressions that a suffix brings along. -/
def Suffix.parts : Suffix → List Expression
  | .member _ _ arguments => arguments.toList
  | .call arguments => [arguments]
  | .index position => [position]
  | .pointer _ | .attribute _ | .classLiteral | .step _ => []

/-- The receiver of a call that names none was not written. -/
theorem implicitCall_stands {object arguments : Expression} {name : String}
    {lo start stop hi : Nat} (hobject : object.Stands lo start)
    (harguments : arguments.Stands start stop) (hstop : stop ≤ hi) :
    Expression.Stands lo (.written (.call (.ofName "this") name arguments false true)
      ⟨object.span.start, stop⟩) hi := by
  have hle : object.span.start ≤ start := hobject.nonempty.le.trans hobject.le_stop
  refine Part.Stands.intro hobject.start_le (hle.trans_lt harguments.lt) hstop fun q hq => ?_
  rcases List.mem_pair.mp hq with rfl | rfl
  · exact .inl .receiver
  · exact .inr (harguments.widen hle (Nat.le_refl _))

/-- An object with a suffix stands from the start of the object to the end of the suffix. -/
theorem Suffix.apply_stands {object : Expression} {suffix : Suffix} {lo start stop hi : Nat}
    (hobject : object.Stands lo start) (hparts : ∀ e ∈ suffix.parts, e.Stands start stop)
    (hle : start ≤ stop) (hstop : stop ≤ hi) : (suffix.apply object stop).Stands lo hi := by
  have hextend {node : ExpressionNode} (hinner : ∀ q ∈ node.inner,
      q = .expression object ∨ ∃ e ∈ suffix.parts, q = .expression e) :
      Expression.Stands lo (.written node ⟨object.span.start, stop⟩) hi := by
    refine hobject.extend hle hstop fun q hq => ?_
    rcases hinner q hq with rfl | ⟨e, he, rfl⟩
    · exact .inl rfl
    · exact .inr (hparts e he)
  cases suffix with
  | classLiteral =>
    rw [Suffix.apply]
    split <;> exact hextend (by simp [ExpressionNode.inner, ExpressionNode.children])
  | member name accessor arguments =>
    cases arguments <;>
      exact hextend (by simp [ExpressionNode.inner, ExpressionNode.children, parts])
  | call arguments =>
    have hcall {name : String} : Expression.Stands lo
        (.written (.call object name arguments false false) ⟨object.span.start, stop⟩) hi :=
      hextend (by simp [ExpressionNode.inner, ExpressionNode.children, parts])
    rw [Suffix.apply]
    split
    · split
      · exact hcall
      · exact implicitCall_stands hobject (hparts arguments List.mem_cons_self) hstop
    · exact hcall
  | _ => exact hextend (by simp [ExpressionNode.inner, ExpressionNode.children, parts])

theorem places_memberName : Places size memberName fun start x stop =>
    start ≤ x.2 ∧ x.2 = stop := fun start =>
  Leads.spanned_bind ((advances_identifier start).mono fun _ _ _ _ hlt =>
    ⟨hlt, Leads.pure ⟨hlt.le, rfl⟩⟩)

theorem advances_accessor : Advances size accessor :=
  Places.firstOf ((advances_symbol "?." rfl).then fun _ => Places.pure_forward _)
    ⟨(advances_symbol "*." rfl).then fun _ => Places.pure_forward _,
      (advances_symbol "." rfl).then fun _ => Places.pure_forward _⟩

theorem places_memberArguments (h : g.Sound size) :
    Places size (memberArguments g) Expression.Stands := by
  refine (places_arguments h).orElse fun start => Leads.spanned_bind ?_
  refine (places_closure h start).mono fun e stop _ _ he => ⟨he.lt, Leads.pure ?_⟩
  exact .whole he.lt (.cons he .nil)

/-- A suffix ends at the given position, and what it brings along stands before that. -/
def SuffixStands (start : Nat) (suffix : Suffix × Nat) (stop : Nat) : Prop :=
  start ≤ suffix.2 ∧ suffix.2 ≤ stop ∧ ∀ e ∈ suffix.1.parts, e.Stands start suffix.2

theorem places_memberSuffix (h : g.Sound size) : Places size (memberSuffix g) SuffixStands := by
  intro start
  refine (advances_accessor start).bind fun accessor p₁ hle₁ _ => ?_
  refine (places_memberName p₁).bind ?_
  rintro ⟨name, stop'⟩ p₂ hle₂ ⟨-, rfl : stop' = p₂⟩
  refine (Places.optional (places_memberArguments h) stop').bind fun arguments stop hle₃ ha => ?_
  refine Leads.pure ?_
  cases arguments with
  | none => exact ⟨hle₁.trans hle₂, hle₃, fun e he => nomatch he⟩
  | some arguments =>
    have ha : arguments.Stands stop' stop := ha arguments rfl
    have hle : stop' ≤ arguments.span.stop := ha.start_le.trans ha.nonempty.le
    refine ⟨(hle₁.trans hle₂).trans hle, ha.le_stop, List.forall_mem_singleton.mpr ?_⟩
    exact ha.own.widen ((hle₁.trans hle₂).trans ha.start_le) (Nat.le_refl _)

/-- A suffix that is a sign and a name. -/
theorem places_namedSuffix {sign : String} {f : String → Suffix}
    (hsign : Advances size (symbol sign)) (hf : ∀ name, (f name).parts = []) :
    Places size (do symbol sign; let (name, stop) ← memberName; pure (f name, stop))
      SuffixStands := by
  intro start
  refine (hsign start).bind fun _ p₁ hle₁ _ => (places_memberName p₁).bind ?_
  rintro ⟨name, stop'⟩ stop hle₂ ⟨-, rfl : stop' = stop⟩
  exact Leads.pure ⟨hle₁.trans hle₂, Nat.le_refl _, by simp [hf]⟩

theorem places_suffix (h : g.Sound size) : Places size (suffix g) SuffixStands := by
  have hsteps : Advances size (orElse (do symbol "++"; pure "++") (do symbol "--"; pure "--")) :=
    ((advances_symbol "++" rfl).then fun _ => Places.pure_forward _).orElse
      ((advances_symbol "--" rfl).then fun _ => Places.pure_forward _)
  refine Places.firstOf (places_namedSuffix (advances_symbol ".&" rfl) fun _ => rfl)
    ⟨places_namedSuffix (advances_symbol ".@" rfl) fun _ => rfl, fun start => ?_,
      places_memberSuffix h,
      fun start => ?_, fun start => ?_, fun start => ?_⟩
  · have hclass : Advances size (do symbol "."; keyword "class") :=
      (advances_symbol "." rfl).then fun _ => (advances_keyword "class").forward
    refine Leads.spanned_bind ((hclass start).mono fun _ _ _ _ hlt => ⟨hlt, Leads.pure ?_⟩)
    exact ⟨hlt.le, Nat.le_refl _, by simp [Suffix.parts]⟩
  · refine (places_arguments h start).bind fun arguments stop _ ha => Leads.pure ?_
    exact ⟨ha.start_le.trans ha.nonempty.le, ha.le_stop,
      List.forall_mem_singleton.mpr (ha.own.widen ha.start_le (Nat.le_refl _))⟩
  · have hindexed := places_inBrackets h (advances_symbol "[" rfl) (advances_symbol "]" rfl)
    refine Leads.spanned_bind ((hindexed start).mono fun index _ _ _ hindex =>
      ⟨hindex.lt, Leads.pure ?_⟩)
    exact ⟨hindex.lt.le, Nat.le_refl _, List.forall_mem_singleton.mpr hindex⟩
  · refine Leads.spanned_bind ((hsteps start).mono fun _ _ _ _ hlt => ⟨hlt, Leads.pure ?_⟩)
    exact ⟨hlt.le, Nat.le_refl _, by simp [Suffix.parts]⟩

theorem places_suffixed (h : g.Sound size) : Places size (suffixed g) Expression.Stands := by
  intro start
  refine (places_primary h start).bind fun _ _ _ hobject =>
    leads_fold_many (places_suffix h) hobject ?_
  rintro object pos ⟨suffix, stop'⟩ stop - hobject ⟨hle, hstop, hparts⟩
  exact Suffix.apply_stands hobject hparts hle hstop

/-! ### Operators before and after an operand -/

theorem places_cast (h : g.Sound size) : Places size (cast g) Expression.Stands := by
  intro start
  have htarget : Advances size (between "(" (typeName g) ")") :=
    (Places.between widens_lt (advances_symbol "(" rfl) (advances_symbol ")" rfl)
      (advances_typeName h)).mono fun _ _ _ _ _ hlt => hlt.1
  refine Leads.spanned_bind ((htarget.accepted start).bind fun target p₁ hle₁ hlt => ?_)
  refine (h.unary p₁).bind fun operand stop hle₂ hoperand => ?_
  have hlt : start < stop := by omega
  refine Leads.pure ⟨hlt, Leads.pure (.whole hlt (.cons ?_ .nil))⟩
  exact hoperand.widen hle₁ (Nat.le_refl _)

theorem advances_sign (s : String) (hs : s.isEmpty = false) : Advances size (sign s) :=
  (advances_symbol s hs).then fun _ => Places.pure_forward _

theorem advances_signs (s : String) (others : List String)
    (hs : (s :: others).all (!·.isEmpty) = true) : Advances size (signs s others) := by
  have hnonempty : ∀ sign ∈ s :: others, sign.isEmpty = false := by simpa using hs
  obtain ⟨hs, hothers⟩ := List.forall_mem_cons.mp hnonempty
  refine Places.firstOf (advances_sign s hs) (List.forall_iff_forall_mem.mpr ?_)
  exact List.forall_mem_map.mpr fun sign hsign => advances_sign sign (hothers sign hsign)

theorem inner_prefixed (operation : String) (operand : Expression) :
    (prefixed operation operand).inner = [.expression operand] := by
  rw [prefixed]
  repeat' split
  all_goals rfl

theorem places_unary (h : g.Sound size) : Places size (unary g) Expression.Stands := by
  refine ((places_cast h).orElse (places_suffixed h)).orElse fun start => ?_
  refine Leads.spanned_bind (((advances_signs "++" ["--", "!", "-", "+", "~"] rfl) start).bind
    fun operation p₁ hle₁ hlt => (h.unary p₁).bind fun operand stop hle₂ hoperand => ?_)
  have hlt : start < stop := by omega
  refine Leads.pure ⟨hlt, Leads.pure (.whole hlt ?_)⟩
  rw [inner_prefixed]
  exact .cons (hoperand.widen hle₁ (Nat.le_refl _)) .nil

/-- A type after `as`, with its end. -/
theorem places_coercion (h : g.Sound size) :
    Places size
      (do let (target, span) ← spanned (do keyword "as"; typeName g)
          pure (target, span.stop))
      fun _ x stop => x.2 = stop := by
  intro start
  have has : Advances size (do keyword "as"; typeName g) :=
    (advances_keyword "as").then fun _ => (advances_typeName h).forward
  exact Leads.spanned_bind ((has start).mono fun _ _ _ _ hlt => ⟨hlt, Leads.pure rfl⟩)

theorem places_coerced (h : g.Sound size) : Places size (coerced g) Expression.Stands := by
  intro start
  refine (places_unary h start).bind fun _ _ _ hoperand =>
    leads_fold_many (places_coercion h) hoperand ?_
  rintro operand pos ⟨target, stop'⟩ stop hle hoperand rfl
  exact hoperand.extend hle (Nat.le_refl _) fun q hq => .inl (List.mem_singleton.mp hq)

/-! ### Binary operators -/

theorem binaryOf_stands {left right : Expression} {operation : String} {lo mid mid' hi : Nat}
    (hleft : left.Stands lo mid) (hle : mid ≤ mid') (hright : right.Stands mid' hi) :
    (binaryOf left operation right).Stands lo hi := by
  refine hleft.through hright hle fun q hq => ?_
  rcases List.mem_pair.mp hq with rfl | rfl
  · exact .inl hleft.own
  · exact .inr (.inr hright.own)

theorem places_chain {operand : Parser Expression} {others : Parser (String × Expression)}
    (hoperand : Places size operand Expression.Stands)
    (hothers : Places size others fun start x stop => x.2.Stands start stop) :
    Places size (chain operand others) Expression.Stands := fun start =>
  (hoperand start).bind fun _ _ _ hfirst =>
    leads_fold_many hothers hfirst fun _ _ _ _ _ hleft hright =>
      binaryOf_stands hleft (Nat.le_refl _) hright

theorem places_round {operand : Parser Expression} {operator : Parser String}
    (hoperand : Places size operand Expression.Stands) (hoperator : Advances size operator) :
    Places size (do let operation ← operator; let right ← operand; pure (operation, right))
      fun start x stop => x.2.Stands start stop := fun start =>
  (hoperator start).bind fun _ pos hle _ => (hoperand pos).bind fun _ _ _ hright =>
    Leads.pure (hright.widen hle (Nat.le_refl _))

theorem places_tier {operand : Parser Expression} {operator : Parser String}
    (hoperand : Places size operand Expression.Stands) (hoperator : Advances size operator) :
    Places size (tier operand operator) Expression.Stands :=
  places_chain hoperand (places_round hoperand hoperator)

theorem places_shift (h : g.Sound size) : Places size (shift g) Expression.Stands := by
  have hpower : Places size (power g) Expression.Stands :=
    places_tier (places_coerced h) (advances_sign "**" rfl)
  have hmultiplicative : Places size (multiplicative g) Expression.Stands :=
    places_tier hpower (advances_signs "*" ["/", "%"] rfl)
  have hadditive : Places size (additive g) Expression.Stands :=
    places_tier hmultiplicative ((advances_sign "+" rfl).orElse (advances_sign "-" rfl))
  exact places_tier hadditive ((advances_sign "<<" rfl).orElse (advances_sign ">>" rfl))

theorem places_range (h : g.Sound size) : Places size (range g) Expression.Stands := by
  intro start
  have hlast : Places size
      (do let inclusive ← orElse (do symbol "..<"; pure false) (do symbol ".."; pure true)
          let last ← shift g
          pure (inclusive, last))
      fun start x stop => x.2.Stands start stop := by
    have hsign : Advances size
        (orElse (do symbol "..<"; pure false) (do symbol ".."; pure true)) :=
      ((advances_symbol "..<" rfl).then fun _ => Places.pure_forward _).orElse
        ((advances_symbol ".." rfl).then fun _ => Places.pure_forward _)
    exact fun start => (hsign start).bind fun _ pos hle _ =>
      (places_shift h pos).bind fun _ _ _ hright =>
        Leads.pure (hright.widen hle (Nat.le_refl _))
  refine (places_shift h start).bind fun first p₁ hle₁ hfirst => ?_
  refine (Places.optional hlast p₁).bind fun last stop hle₂ hlast => ?_
  cases last with
  | none => exact Leads.pure (hfirst.widen (Nat.le_refl _) hle₂)
  | some last =>
    have hlast : last.2.Stands p₁ stop := hlast last rfl
    refine Leads.pure (hfirst.through hlast (Nat.le_refl _) fun q hq => ?_)
    rcases List.mem_pair.mp hq with rfl | rfl
    · exact .inl hfirst.own
    · exact .inr (.inr hlast.own)

theorem advances_wordSign (w : String) : Advances size (wordSign w) :=
  (advances_keyword w).then fun _ => Places.pure_forward _

theorem places_relational (h : g.Sound size) : Places size (relational g) Expression.Stands := by
  refine places_chain (places_range h) ((places_round (places_range h) ?_).orElse ?_)
  · exact Places.firstOf (advances_sign "<=" rfl)
      ⟨advances_sign ">=" rfl, advances_sign "<" rfl, advances_sign ">" rfl, advances_wordSign "in"⟩
  · intro start
    refine (advances_wordSign "instanceof" start).bind fun _ pos hle _ => ?_
    refine Leads.spanned_bind ((advances_typeName h pos).mono fun _ stop _ _ hlt => ⟨hlt, ?_⟩)
    exact Leads.pure (.of_inner hle hlt (Nat.le_refl _) .nil)

theorem places_logicalOr (h : g.Sound size) : Places size (logicalOr g) Expression.Stands := by
  have hequality : Places size (equality g) Expression.Stands :=
    places_tier (places_relational h) (advances_signs "==~" ["==", "!=", "<=>", "=~"] rfl)
  have hand : Places size (bitwiseAnd g) Expression.Stands :=
    places_tier hequality (advances_sign "&" rfl)
  have hxor : Places size (bitwiseXor g) Expression.Stands :=
    places_tier hand (advances_sign "^" rfl)
  have hor : Places size (bitwiseOr g) Expression.Stands :=
    places_tier hxor (advances_sign "|" rfl)
  have hlogicalAnd : Places size (logicalAnd g) Expression.Stands :=
    places_tier hor (advances_sign "&&" rfl)
  exact places_tier hlogicalAnd (advances_sign "||" rfl)

/-! ### Conditionals and assignments -/

/-- Both branches of a conditional stand between two positions, in order. -/
def BranchesStand (start : Nat) (branches : Option Expression × Expression) (stop : Nat) : Prop :=
  ∃ mid, start ≤ mid ∧ (∀ e ∈ branches.1, e.Stands start mid) ∧ branches.2.Stands mid stop

theorem places_conditionalBranches (h : g.Sound size) :
    Places size (conditionalBranches g) BranchesStand := by
  intro start
  refine Leads.orElse ?_ ?_
  · refine ((advances_symbol "?:" rfl) start).bind fun _ p₁ hle₁ _ => ?_
    refine (h.expression p₁).bind fun otherwise _ _ ho => Leads.pure ?_
    exact ⟨p₁, hle₁, by simp, ho⟩
  · refine ((advances_symbol "?" rfl) start).bind fun _ p₁ hle₁ _ => ?_
    refine (h.expression p₁).bind fun whenTrue p₂ hle₂ ht => ?_
    refine ((advances_symbol ":" rfl) p₂).bind fun _ p₃ hle₃ _ => ?_
    refine (h.expression p₃).bind fun whenFalse _ _ hf => Leads.pure ?_
    refine ⟨p₃, by omega, ?_, hf⟩
    rintro e ⟨rfl⟩
    exact ht.widen hle₁ hle₃

theorem places_conditional (h : g.Sound size) : Places size (conditional g) Expression.Stands := by
  intro start
  refine (places_logicalOr h start).bind fun condition p₁ hle₁ hc => ?_
  refine (Places.optional (places_conditionalBranches h) p₁).bind fun branches stop hle₂ hb => ?_
  match branches with
  | none => exact Leads.pure (hc.widen (Nat.le_refl _) hle₂)
  | some (some whenTrue, whenFalse) =>
    obtain ⟨mid, hmid, ht, hf⟩ := hb _ rfl
    refine Leads.pure (hc.through hf hmid ?_)
    simp only [ExpressionNode.inner, ExpressionNode.children, List.forall_mem_cons]
    exact ⟨.inl hc.own.asCondition, .inr (.inl (ht _ rfl)), .inr (.inr hf.own), by simp⟩
  | some (none, otherwise) =>
    obtain ⟨mid, hmid, -, ho⟩ := hb _ rfl
    refine Leads.pure (hc.through ho hmid ?_)
    simp only [ExpressionNode.inner, List.forall_mem_cons]
    exact ⟨.inl hc.own.asCondition, .inl hc.own, .inr (.inr ho.own), by simp⟩

theorem places_expression (h : g.Sound size) : Places size (expression g) Expression.Stands := by
  intro start
  refine (places_conditional h start).bind fun target p₁ hle₁ ht => ?_
  have hassigned := places_round h.expression
    (advances_signs "**=" ["+=", "-=", "*=", "/=", "%=", "="] rfl)
  refine (Places.optional hassigned p₁).bind fun assigned stop hle₂ ha => ?_
  match assigned with
  | none => exact Leads.pure (ht.widen (Nat.le_refl _) hle₂)
  | some (operation, value) => exact Leads.pure (binaryOf_stands ht (Nat.le_refl _) (ha _ rfl))

end ScriptOutline.Grammar
