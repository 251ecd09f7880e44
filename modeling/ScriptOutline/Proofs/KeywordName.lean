/-
ScriptOutline/Proofs/KeywordName.lean

Keywords as names.  Names are read by one rule, which takes no keywords, wherever they stand:
variables, parameters, methods that are declared or called, fields, properties, classes and
constructors.  Two rules make variables of other words.  One makes them of `this` and `super`; the
other one reads a path in a text, `$name.path`, and takes its words as they are.

So a keyword that is the name of anything in a script is either one of the two words, or the first
word of a path in a text (`Script.parse_keyword`), and in a text it can be any keyword
(`Script.parse_keywordInText`).

The proof goes by the ways in which a piece can be read.  What is said of the names in a piece
(`Piece.Accounts`) has to allow for a path, of which only the piece around it tells that it stands
in a text.
-/
import ScriptOutline.Proofs.ReadableScript

namespace ScriptOutline

open ScriptOutline.Grammar (keywords dottedName?)

/-! ### Paths in a text -/

/-- What plain accesses start from: `a` in `a.b.c`. -/
def Expression.root : Expression → Expression
  | ⟨.access object _ .plain, _, _⟩ => object.root
  | e => e

/-- The expression is a variable with plain accesses to members, and the piece is the variable. -/
def Expression.StartsAt (v : Expression) (p : Piece) : Prop :=
  (dottedName? v).isSome ∧ p = .ofExpression v.root

theorem Expression.StartsAt.access {object : Expression} {p : Piece} (h : object.StartsAt p)
    (name : String) (span : Span) : (written (.access object name .plain) span).StartsAt p := by
  refine ⟨?_, h.2⟩
  rw [written, dottedName?, Option.isSome_map]
  exact h.1

/-- The expression is a value in a text, which is in the piece. -/
def Piece.Inserts (p : Piece) (v : Expression) : Prop :=
  ∃ fragments values span inferred,
    p.Reaches (.ofExpression ⟨.interpolation fragments values, span, inferred⟩) ∧ v ∈ values

/-- The expression is a value in a text, which is in the script. -/
def Script.Inserts (s : Script) (v : Expression) : Prop :=
  ∃ fragments values span inferred,
    s.Contains (.ofExpression ⟨.interpolation fragments values, span, inferred⟩) ∧ v ∈ values

theorem Piece.Inserts.outer {p q : Piece} {v : Expression} (h : q.Inserts v) (hq : q ∈ p.inner) :
    p.Inserts v := by
  obtain ⟨fragments, values, span, inferred, hreaches, hv⟩ := h
  exact ⟨fragments, values, span, inferred, .head hq hreaches, hv⟩

/-- The variable `this` or `super`. -/
def Piece.IsSpecialVariable (p : Piece) : Prop :=
  ∃ (special : SpecialCall) (declared : Option TypeRef) (origin : Option Origin) (span : Span),
    p = .ofExpression (.written (.variableRef special.word declared origin) span)

/-! ### Names in what can be read -/

/-- What a text can be that is among the names of a piece `q`, which is in the piece `p`. -/
inductive Piece.Accounts (p q : Piece) (name : String) : Prop
  | name : IsName name → Accounts p q name
  | special : q.IsSpecialVariable → Accounts p q name
  | inserted (v : Expression) : p.Inserts v → v.StartsAt q → Accounts p q name

theorem Piece.Accounts.outer {p q r : Piece} {name : String} (h : r.Accounts q name)
    (hr : r ∈ p.inner) : p.Accounts q name := by
  cases h with
  | name h => exact .name h
  | special h => exact .special h
  | inserted v hv hstart => exact .inserted v (hv.outer hr) hstart

/-- What is read as the notion can be a path. -/
def Notion.IsPath : Notion → Prop
  | .path | .inserted => True
  | .value | .code => False

/-- The piece is a path, and `q` is the variable that it starts with. -/
def Piece.StartsAt (p q : Piece) : Prop := ∃ v, p = .ofExpression v ∧ v.StartsAt q

/-- The names that a value has itself are names, unless it is a special variable. -/
theorem ExpressionNode.Ordinary.accounts {node : ExpressionNode} (h : node.Ordinary) {span : Span}
    {p : Piece} {name : String} (hname : name ∈ node.names) :
    p.Accounts (.ofExpression (.written node span)) name := by
  cases node
  case call object method arguments safe implicitReceiver =>
    obtain rfl := List.mem_singleton.mp hname
    exact .name h.1
  case methodPointer object method =>
    obtain rfl := List.mem_singleton.mp hname
    exact .name h
  case variableRef word declared origin =>
    obtain rfl := List.mem_singleton.mp hname
    rcases h with h | ⟨special, rfl⟩
    · exact .name h
    · exact .special ⟨special, declared, origin, span, rfl⟩
  case closure parameters code =>
    obtain ⟨parameter, hparameter, rfl⟩ := List.mem_map.mp hname
    exact .name (h parameter hparameter)
  case staticCall | field => exact h.elim
  all_goals exact absurd hname List.not_mem_nil

namespace Piece.Readable

variable {n : Notion} {p q : Piece} {name : String}

/-- What is among the names in a piece is one that it has itself, or in a part. -/
theorem accounts_of_parts (hq : p.Reaches q)
    (hown : q = p → p.Accounts q name) (h : ∀ r ∈ p.inner, r.Reaches q → r.Accounts q name) :
    p.Accounts q name := by
  rcases Relation.ReflTransGen.cases_head hq with rfl | ⟨r, hr, hrq⟩
  · exact hown rfl
  · exact (h r hr hrq).outer hr

/-- A piece may have no names itself. -/
theorem accounts_of_inner (hq : p.Reaches q) (hname : name ∈ q.names) (hnone : p.names = [])
    (h : ∀ r ∈ p.inner, r.Reaches q → r.Accounts q name) : p.Accounts q name := by
  refine accounts_of_parts hq ?_ h
  rintro rfl
  rw [hnone] at hname
  cases hname

/-- A value of a text may be a path, which is then known to be in a text. -/
theorem accounts_of_text {fragments values : List Expression} {span : Span}
    (hq : (Piece.ofExpression (.written (.interpolation fragments values) span)).Reaches q)
    (hname : name ∈ q.names)
    (hfragments : ∀ e ∈ fragments, (Piece.ofExpression e).Reaches q →
      (Piece.ofExpression e).Accounts q name)
    (hvalues : ∀ v ∈ values, (Piece.ofExpression v).Reaches q →
      (Piece.ofExpression v).Accounts q name ∨ v.StartsAt q) :
    (Piece.ofExpression (.written (.interpolation fragments values) span)).Accounts q name := by
  rcases Relation.ReflTransGen.cases_head hq with rfl | ⟨r, hr, hrq⟩
  · exact absurd hname List.not_mem_nil
  · obtain ⟨part, hpart, rfl⟩ := List.mem_map.mp hr
    obtain ⟨e, he, rfl⟩ := List.mem_map.mp hpart
    rcases List.mem_append.mp he with he | he
    · exact (hfragments e he hrq).outer hr
    · rcases hvalues e he hrq with h | hstart
      · exact h.outer hr
      · exact .inserted e ⟨fragments, values, span, none, .refl, he⟩ hstart

/-- The condition of a short conditional is its operand, below a node without names. -/
theorem accounts_of_elvis {value otherwise : Expression} {span : Span}
    (hq : (Piece.ofExpression
      (.written (.elvis value.asCondition value otherwise) span)).Reaches q)
    (hname : name ∈ q.names)
    (hvalue : (Piece.ofExpression value).Reaches q → (Piece.ofExpression value).Accounts q name)
    (hotherwise : (Piece.ofExpression otherwise).Reaches q →
      (Piece.ofExpression otherwise).Accounts q name) :
    (Piece.ofExpression
      (.written (.elvis value.asCondition value otherwise) span)).Accounts q name := by
  have hcondition (hrq : (Piece.ofExpression value.asCondition).Reaches q) :
      (Piece.ofExpression value.asCondition).Accounts q name :=
    accounts_of_inner hrq hname rfl (List.forall_mem_singleton.mpr hvalue)
  exact accounts_of_inner hq hname rfl (List.forall_mem_cons.mpr
    ⟨hcondition, List.forall_mem_cons.mpr ⟨hvalue, List.forall_mem_singleton.mpr hotherwise⟩⟩)

/-- Every text among the names in a piece that can be read is a name or a special word, or the
first word of a path. -/
theorem accounts (h : p.Readable n) (hq : p.Reaches q) (hname : name ∈ q.names) :
    p.Accounts q name ∨ n.IsPath ∧ p.StartsAt q := by
  -- by the ways in which a piece can be read; only the first two of them make a path
  induction h with
  | word word span =>
    refine .inr ⟨trivial, _, rfl, rfl, ?_⟩
    rcases Relation.ReflTransGen.cases_head hq with rfl | ⟨r, hr, -⟩
    · rfl
    · exact absurd hr List.not_mem_nil
  | @step object word span _ ih =>
    rcases Relation.ReflTransGen.cases_head hq with rfl | ⟨r, hr, hrq⟩
    · exact absurd hname List.not_mem_nil
    · obtain rfl := List.mem_singleton.mp hr
      rcases ih hrq with h | ⟨-, v, hv, hstart⟩
      · exact .inl (h.outer hr)
      · cases hv
        exact .inr ⟨trivial, _, rfl, hstart.access word span⟩
  | ofPath _ ih => exact (ih hq).imp_right fun h => ⟨trivial, h.2⟩
  | ofValue _ ih | part _ ih => exact .inl ((ih hq).resolve_right And.left)
  | node hnode _ ih =>
    refine .inl (accounts_of_parts hq ?_ (List.forall_mem_map.mpr fun r hr hrq => ?_))
    · rintro rfl
      exact hnode.accounts hname
    · exact (ih r hr hrq).resolve_right And.left
  | text _ _ _ ihfragments ihvalues =>
    refine .inl (accounts_of_text hq hname
      (fun e he hrq => (ihfragments e he hrq).resolve_right And.left) fun v hv hrq => ?_)
    rcases ihvalues v hv hrq with h | ⟨-, v, ⟨⟩, hstart⟩
    · exact .inl h
    · exact .inr hstart
  | elvis _ _ ihvalue ihotherwise =>
    exact .inl (accounts_of_elvis hq hname (fun hrq => (ihvalue hrq).resolve_right And.left)
      fun hrq => (ihotherwise hrq).resolve_right And.left)
  | block _ _ ih =>
    refine .inl (accounts_of_inner hq hname rfl
      (List.forall_mem_map.mpr (List.forall_mem_map.mpr fun s hs hrq => ?_)))
    exact (ih s hs hrq).resolve_right And.left
  | missing => exact .inl (accounts_of_inner hq hname rfl (List.forall_mem_nil _))
  | @declaration target type value nameSpan span htarget _ ih =>
    refine .inl (accounts_of_inner hq hname rfl (List.forall_mem_cons.mpr
      ⟨fun hrq => ?_, List.forall_mem_singleton.mpr fun hrq => ?_⟩))
    · refine accounts_of_parts hrq ?_ (List.forall_mem_nil _)
      rintro rfl
      obtain rfl := List.mem_singleton.mp hname
      exact .name htarget
    · exact (ih hrq).resolve_right And.left
  | clauses _ ih =>
    refine .inl (accounts_of_inner hq hname rfl
      (List.forall_mem_map.mpr (List.forall_mem_map.mpr fun e he hrq => ?_)))
    exact (ih e he hrq).resolve_right And.left
  | other _ _ hnames _ ih =>
    refine .inl (accounts_of_parts hq ?_ fun r hr hrq => (ih r hr hrq).resolve_right And.left)
    rintro rfl
    exact .name (hnames name hname)

end Piece.Readable

/-! ### Keywords -/

/-- A keyword that is the name of anything in a script that is read is one of the two special
variables, or the first word of a path in a text. -/
theorem Script.parse_keyword {source : String} {s : Script} (h : Script.parse source = .ok s)
    {p : Piece} (hp : s.Contains p) {name : String} (hname : name ∈ p.names)
    (hkeyword : name ∈ keywords) :
    p.IsSpecialVariable ∨ ∃ v, s.Inserts v ∧ v.StartsAt p := by
  obtain ⟨root, hroot, hreaches⟩ := hp
  have haccounts : root.Accounts p name :=
    ((Script.parse_readable h root hroot).accounts hreaches hname).resolve_right And.left
  cases haccounts with
  | name hname => exact absurd hkeyword hname.free
  | special h => exact .inl h
  | inserted v hv hstart =>
    obtain ⟨fragments, values, span, inferred, htext, hv⟩ := hv
    exact .inr ⟨v, ⟨fragments, values, span, inferred, ⟨root, hroot, htext⟩, hv⟩, hstart⟩

/-- A text of one value. -/
def keywordText : String := "\"$class\""

/-- The value is a variable. -/
def keywordVariable : Expression := .written (.variableRef "class" none none) ⟨2, 7⟩

theorem Script.contains_keywordVariable : ∃ s, Script.parse keywordText = .ok s ∧
    s.Contains (.ofExpression keywordVariable) :=
  ⟨⟨[⟨.expression (.written (.interpolation [.written (.constant (.string "")) ⟨0, 8⟩,
      .written (.constant (.string "")) ⟨0, 8⟩] [keywordVariable]) ⟨0, 8⟩), ⟨0, 8⟩⟩], [], []⟩, rfl,
    _, .head _, .head (.head _) (.head (.tail _ (.tail _ (.head _))) .refl)⟩

theorem not_isSpecialVariable_keywordVariable :
    ¬ (Piece.ofExpression keywordVariable).IsSpecialVariable := by
  rintro ⟨special, declared, origin, span, h⟩
  cases special <;> simp [Piece.ofExpression, keywordVariable, Expression.written,
    SpecialCall.word] at h

theorem Script.parse_keyword_class : ∃ s, Script.parse keywordText = .ok s ∧
    "class" ∈ keywords ∧ ∃ v, s.Inserts v ∧ v.StartsAt (.ofExpression keywordVariable) := by
  obtain ⟨s, hparse, hcontains⟩ := Script.contains_keywordVariable
  have hname : "class" ∈ (Piece.ofExpression keywordVariable).names := .head _
  have hkeyword : "class" ∈ keywords := by decide
  exact ⟨s, hparse, hkeyword, (Script.parse_keyword hparse hcontains hname hkeyword).resolve_left
    not_isSpecialVariable_keywordVariable⟩

/-- A text can have a variable that is named by a keyword, and is neither `this` nor `super`. -/
theorem Script.parse_keywordInText : ∃ s, Script.parse "\"$class\"" = .ok s ∧
    ∃ p, s.Contains p ∧ "class" ∈ p.names ∧ "class" ∈ keywords ∧ ¬ p.IsSpecialVariable := by
  obtain ⟨s, hparse, hcontains⟩ := Script.contains_keywordVariable
  exact ⟨s, hparse, _, hcontains, .head _, by decide, not_isSpecialVariable_keywordVariable⟩

end ScriptOutline
