/-
ScriptOutline/Proofs/Literal.lean

Literals on their own: a literal that stands where a statement may start, with nothing behind it
that an expression could go on with, is an expression statement.

Where a literal starts and where it ends the same few characters stand: digits, quotes and closing
braces (`Signless`).  No word starts with one of them, and of the signs of the grammar only the
closing brace does.  So no declaration and no keyword is found before the literal, and no suffix,
no cast and no operator behind it.

The main results are `Signless.expression`, about any operand before such a text, and
`statementNode_of_literal`.
-/
import ScriptOutline.Proofs.ReadBack

namespace ScriptOutline.Grammar

open ScriptOutline.Grammar.Parser

/-! ### Texts that start with no word and no sign -/

/-- Digits, quotes and the closing brace. -/
def isSignless (c : Char) : Bool := c.isDigit || ['\'', '"', '\x7d'].contains c

/-- The text is at its end, or starts with a digit, a quote or a closing brace. -/
def Signless (cs : List Char) : Prop := ∀ c ∈ cs.head?, isSignless c = true

namespace Signless

theorem nil : Signless [] := by simp [Signless]

theorem cons {c : Char} (hc : isSignless c = true) (cs : List Char) : Signless (c :: cs) := by
  rintro d ⟨⟩
  exact hc

variable {cs : List Char} (h : Signless cs)
include h

/-- A test that fails for all digits fails for such a text, if it fails for the other three. -/
theorem head {f : Char → Bool} (hdigit : ∀ c, c.isDigit = true → f c = false)
    (hmarks : ['\'', '"', '\x7d'].any f = false) : ∀ c ∈ cs.head?, f c = false := by
  intro c hc
  rcases Bool.or_eq_true_iff.mp (h c hc) with hd | hmark
  · exact hdigit c hd
  · rw [← Bool.not_eq_true]
    exact List.any_eq_false.mp hmarks c (List.contains_iff_mem.mp hmark)

theorem solid : Solid cs := by
  have hslash : ∀ c ∈ cs.head?, (c == '/') = false := by
    refine h.head (fun c hc => beq_false_of_ne ?_) (by decide)
    rintro rfl
    cases hc
  refine ⟨h.head (fun c hc => isBlank_eq_false_of_isNamePart ?_) (by decide), ?_, ?_⟩
  · simp [isNamePart, Char.isAlphanum, hc]
  · exact not_starts_of_head (by decide) hslash
  · exact not_starts_of_head (by decide) hslash

theorem noName : ∀ c ∈ cs.head?, isNameStart c = false := by
  refine h.head (fun c hc => ?_) (by decide)
  rw [← Bool.not_eq_true]
  intro hname
  rw [isDigit_eq_false_of_isNameStart hname] at hc
  cases hc

theorem symbol {s : String} (hs : s.toList.head?.any (fun c => !isSignless c) = true) :
    Fails (Grammar.symbol s) cs :=
  Fails.symbol h.solid (not_starts_of_head hs fun c hc => by rw [h c hc, Bool.not_true])

theorem sign {s : String} (hs : s.toList.head?.any (fun c => !isSignless c) = true) :
    Fails (Grammar.sign s) cs := (h.symbol hs).bind

theorem signs {s : String} {others : List String}
    (hs : (s :: others).all (·.toList.head?.any fun c => !isSignless c) = true) :
    Fails (Grammar.signs s others) cs := by
  obtain ⟨hfirst, hothers⟩ := List.forall_mem_cons.mp (List.all_eq_true.mp hs)
  exact Fails.firstOf (h.sign hfirst) (List.forall_mem_map.mpr fun r hr => h.sign (hothers r hr))

theorem keyword (w : String) : Fails (Grammar.keyword w) cs := Fails.keyword h.solid h.noName

theorem suffix (g : Inner) : Fails (Grammar.suffix g) cs := by
  have hsigns : ∀ s ∈ suffixSigns, s.toList.head?.any (fun c => !isSignless c) = true := by
    decide
  exact suffix_of_signs g fun s hs => h.symbol (hsigns s hs)

end Signless

/-! ### Behind an operand -/

/-- One operand is a chain of its own. -/
theorem chain_single {operand : Parser Expression} {others : Parser (String × Expression)}
    {cs rest : List Char} {holds : Expression → Prop} (hone : Reads operand cs rest holds)
    (hothers : Fails others rest) : Reads (chain operand others) cs rest holds := by
  refine hone.bind fun first hfirst => (Reads.many_none hothers).bind fun rounds hnone =>
    Reads.pure ?_
  rw [hnone]
  exact hfirst

theorem tier_single {operand : Parser Expression} {operator : Parser String}
    {cs rest : List Char} {holds : Expression → Prop} (hone : Reads operand cs rest holds)
    (hoperator : Fails operator rest) : Reads (tier operand operator) cs rest holds :=
  chain_single hone hoperator.bind

section Alone

variable {g : Inner} {cs rest : List Char} {holds : Expression → Prop} (h : Signless rest)
include h

theorem Signless.range (hone : Reads (coerced g) cs rest holds) :
    Reads (Grammar.range g) cs rest holds := by
  have hpower : Reads (power g) cs rest holds := tier_single hone (h.sign (by decide))
  have hmultiplicative : Reads (multiplicative g) cs rest holds :=
    tier_single hpower (h.signs (by decide))
  have hadditive : Reads (additive g) cs rest holds :=
    tier_single hmultiplicative (Fails.orElse (h.sign (by decide)) (h.sign (by decide)))
  have hshift : Reads (shift g) cs rest holds :=
    tier_single hadditive (Fails.orElse (h.sign (by decide)) (h.sign (by decide)))
  have hpoints : Fails (orElse (do Grammar.symbol "..<"; pure false)
      (do Grammar.symbol ".."; pure true)) rest :=
    Fails.orElse (h.symbol (by decide)).bind (h.symbol (by decide)).bind
  refine hshift.bind fun first hfirst => (Reads.optional_none hpoints.bind).bind
    fun last hnone => ?_
  rw [hnone]
  exact Reads.pure hfirst

theorem Signless.logicalOr (hone : Reads (coerced g) cs rest holds) :
    Reads (Grammar.logicalOr g) cs rest holds := by
  -- rung by rung: no operator can be read behind the operand, so it passes through
  have hcomparison : Fails
      (firstOf (Grammar.sign "<=")
        [Grammar.sign ">=", Grammar.sign "<", Grammar.sign ">", wordSign "in"]) rest := by
    refine Fails.firstOf (h.sign (by decide)) ?_
    simp only [List.forall_mem_cons, List.not_mem_nil, false_implies, implies_true, and_true]
    exact ⟨h.sign (by decide), h.sign (by decide), h.sign (by decide), (h.keyword "in").bind⟩
  have hrelational : Reads (relational g) cs rest holds :=
    chain_single (h.range hone)
      (Fails.orElse hcomparison.bind (h.keyword "instanceof").bind.bind)
  have hequality : Reads (equality g) cs rest holds :=
    tier_single hrelational (h.signs (by decide))
  have hand : Reads (bitwiseAnd g) cs rest holds := tier_single hequality (h.sign (by decide))
  have hxor : Reads (bitwiseXor g) cs rest holds := tier_single hand (h.sign (by decide))
  have hor : Reads (bitwiseOr g) cs rest holds := tier_single hxor (h.sign (by decide))
  have hlogicalAnd : Reads (logicalAnd g) cs rest holds := tier_single hor (h.sign (by decide))
  exact tier_single hlogicalAnd (h.sign (by decide))

/-- One operand is an expression. -/
theorem Signless.expression (hone : Reads (coerced g) cs rest holds) :
    Reads (Grammar.expression g) cs rest holds := by
  have hbranches : Fails (conditionalBranches g) rest :=
    Fails.orElse (h.symbol (by decide)).bind (h.symbol (by decide)).bind
  have hconditional : Reads (conditional g) cs rest holds := by
    refine (h.logicalOr hone).bind fun condition hcondition =>
      (Reads.optional_none hbranches).bind fun branches hnone => ?_
    rw [hnone]
    exact Reads.pure hcondition
  have hassignment : Fails (Grammar.signs "**=" ["+=", "-=", "*=", "/=", "%=", "="]) rest :=
    h.signs (by decide)
  refine hconditional.bind fun target htarget =>
    (Reads.optional_none hassignment.bind).bind fun assigned hnone => ?_
  rw [hnone]
  exact Reads.pure htarget

/-- One primary is an expression, if it is not a cast. -/
theorem Signless.expression_of_primary (hcast : Fails (cast g) cs)
    (hprimary : Reads (primary g) cs rest holds) : Reads (Grammar.expression g) cs rest holds :=
  h.expression (coerced_of_suffixed hcast
    (suffixed_of_primary hprimary (Repeats.stop (h.suffix g) fun _ he => he)) (h.keyword "as"))

end Alone

/-! ### Literals as statements -/

section Statement

variable {g : Inner} {cs : List Char} (h : Signless cs)
include h

theorem Signless.undeclared : Undeclared cs where
  annotation := h.symbol (by decide)
  block := h.symbol (by decide)
  keyword w _ _ := h.keyword w

theorem Signless.untyped : Untyped g cs := .inl (Fails.identifier h.solid h.noName).bind.bind

/-- A literal is an expression, where nothing goes on behind it. -/
theorem Signless.expression_of_literal {rest : List Char} {holds : Expression → Prop}
    (hrest : Signless rest) (hliteral : Reads (literal g) cs rest holds) :
    Reads (Grammar.expression g) cs rest holds := by
  have hcast : Fails (cast g) cs := (Fails.accepted (h.symbol (by decide)).bind).bind.spanned.bind
  exact hrest.expression_of_primary hcast (Reads.firstOf_head hliteral)

/-- No other expression starts where a literal may start. -/
theorem Signless.expression_fails (hliteral : Fails (literal g) cs) :
    Fails (Grammar.expression g) cs := by
  -- all primaries but a literal start with a word or with a sign
  have hnew : Fails (Grammar.keyword "new") cs := h.keyword "new"
  have hspecial : Fails specialWord cs :=
    Fails.orElse (h.keyword "this").bind (h.keyword "super").bind
  have hround : Fails (Grammar.symbol "(") cs := h.symbol (by decide)
  have hsquare : Fails (Grammar.symbol "[") cs := h.symbol (by decide)
  have hprimary : Fails (primary g) cs := by
    refine Fails.firstOf hliteral ?_
    simp only [List.forall_mem_cons, List.not_mem_nil, false_implies, implies_true, and_true]
    refine ⟨hnew.bind.spanned.bind, hnew.bind.spanned.bind, hnew.bind.spanned.bind,
      hspecial.bind.spanned.bind, hspecial.spanned.bind, ?_, hsquare.bind.spanned.bind,
      hsquare.bind.spanned.bind, hsquare.bind.spanned.bind, hround.bind, ?_⟩
    · exact (h.symbol (by decide)).bind.spanned.bind
    · exact (Fails.identifier h.solid h.noName).spanned.bind
  have hcast : Fails (cast g) cs := (Fails.accepted hround.bind).bind.spanned.bind
  exact expression_of_unary (Fails.orElse (Fails.orElse hcast hprimary.bind)
    (h.signs (by decide)).bind.spanned.bind)

theorem statementNode_of_literal {rest : List Char} {holds : Expression → Prop}
    (hrest : Signless rest) (hliteral : Reads (literal g) cs rest holds) :
    Reads (statementNode g) cs rest fun node => ∃ e, node = .expression e ∧ holds e :=
  statementNode_of_expression h.undeclared (h.keyword "return") h.untyped
    (h.expression_of_literal hrest hliteral)

end Statement

end ScriptOutline.Grammar
