/-
ScriptOutline/Proofs/Connective.lean

Two operands with one sign between them.

The sign is an operator of some tier or that of a range, which has its place between two tiers
(`Connective.rung`).  A rung of the grammar up to a bound reads one operand alone, if nothing
tighter than the bound stands behind it, and two operands with a sign of a tighter rung between
them (`ReadsRung`).  Operands are any texts that `coerced` reads, so nothing here depends on
what they are made of.  The right operand of an assignment is read by a whole expression; so
`expression_pair` asks for that too.
-/
import ScriptOutline.Proofs.Signs

namespace ScriptOutline.Grammar

open ScriptOutline.Grammar.Parser

/-! ### Connectives -/

/-- One blank. -/
def oneBlank : Gap := ⟨' ', [], List.forall_mem_singleton.mpr (by decide)⟩

/-- What may stand between two operands. -/
inductive Connective where
  | operator (operator : Operator)
  | range (inclusive : Bool)

namespace Connective

def rangeSign (inclusive : Bool) : String := if inclusive then ".." else "..<"

/-- The position of the ranges among the tiers. -/
def rangeRung : Nat := 4

/-- The position of a tier, the ranges counted. -/
def rungOf (tier : Nat) : Nat := if tier < rangeRung then tier else tier + 1

theorem rungOf_lt_iff {t t' : Nat} : rungOf t < rungOf t' ↔ t < t' := by
  unfold rungOf rangeRung
  split <;> split <;> omega

theorem rungOf_ne_rangeRung (t : Nat) : rungOf t ≠ rangeRung := by
  unfold rungOf rangeRung
  split <;> omega

theorem eq_of_rungOf_eq {t t' : Nat} (h : rungOf t = rungOf t') : t = t' := by
  rcases Nat.lt_trichotomy t t' with hlt | heq | hlt
  · exact absurd h (Nat.ne_of_lt (rungOf_lt_iff.mpr hlt))
  · exact heq
  · exact absurd h (Nat.ne_of_gt (rungOf_lt_iff.mpr hlt))

def rung : Connective → Nat
  | .operator o => rungOf o.tier
  | .range _ => rangeRung

/-- The expression of two operands. -/
def node : Connective → Expression → Expression → ExpressionNode
  | .operator o, left, right => .binary left o.text right
  | .range inclusive, first, last => .range first last inclusive

/-- The blanks between the left operand and the sign. -/
def blanks : Connective → List Char
  | .operator _ => oneBlank.chars
  | .range _ => []

/-- A text with the sign before it. -/
def before : Connective → List Char → List Char
  | .operator o, cs => operatorText o oneBlank cs
  | .range inclusive, cs => (rangeSign inclusive).toList ++ cs

/-- The expression connects two operands of which two properties hold. -/
def Joins (s : Connective) (left right : Expression → Prop) (e : Expression) : Prop :=
  ∃ l r span, e = .written (s.node l r) span ∧ left l ∧ right r

theorem solid_before (s : Connective) (cs : List Char) : Solid (s.before cs) := by
  cases s with
  | operator o => exact solid_operatorText o oneBlank cs
  | range inclusive => cases inclusive <;> exact Solid.cons (by decide) (by decide)

theorem before_append (s : Connective) (cs tail : List Char) :
    s.before cs ++ tail = s.before (cs ++ tail) := by
  cases s <;> simp [before, operatorText]

theorem ending_before_range (inclusive : Bool) (cs : List Char) :
    Ending ((range inclusive).before cs) := by
  cases inclusive <;> (rintro c ⟨⟩; decide)

theorem length_before (s : Connective) (cs : List Char) :
    cs.length < (s.before cs).length := by
  cases s with
  | operator o =>
    simp only [before, operatorText, oneBlank, Gap.chars, List.length_append, List.length_cons]
    omega
  | range inclusive =>
    cases inclusive <;> simp only [before, rangeSign, List.length_append]
    · exact Nat.lt_add_of_pos_left (by decide)
    · exact Nat.lt_add_of_pos_left (by decide)

/-- A sign that no operator starts with, and that is no point, is no connective. -/
theorem symbol_before {s : String} (hs : isForeign s = true)
    (hpoint : s.toList.head?.any (· != '.') = true) (t : Connective) (cs : List Char) :
    Fails (symbol s) (t.before cs) := by
  cases t with
  | operator o => exact symbol_operatorText hs o oneBlank cs
  | range inclusive =>
    refine Fails.symbol (solid_before _ cs) (not_starts_of_head hpoint ?_)
    cases inclusive <;> (rintro c ⟨⟩; decide)

theorem keyword_before {w : String} (hw : w ≠ "in") (s : Connective) (cs : List Char) :
    Fails (keyword w) (s.before cs) := by
  cases s with
  | operator o => exact keyword_operatorText hw o oneBlank cs
  | range inclusive => exact (ending_before_range inclusive cs).keyword w

end Connective

/-! ### Behind an operand -/

/-- The text is at its end, or starts with a closing bracket. -/
def Closed (cs : List Char) : Prop := ∀ c ∈ cs.head?, c ∈ [')', ']']

theorem Closed.nil : Closed [] := by simp [Closed]

theorem Closed.ending {cs : List Char} (h : Closed cs) : Ending cs := fun c hc =>
  List.mem_append_left ['.'] (h c hc)

/-- The text has no connective that is tighter than a bound. -/
inductive Behind (bound : Nat) : List Char → Prop where
  | closed {cs : List Char} (h : Closed cs) : Behind bound cs
  | connective {cs : List Char} (s : Connective) (hcs : Solid cs) (h : bound ≤ s.rung) :
    Behind bound (s.before cs)

theorem Behind.mono {bound bound' : Nat} {cs : List Char} (h : Behind bound cs)
    (hle : bound' ≤ bound) : Behind bound' cs := by
  cases h with
  | closed h => exact .closed h
  | connective s hcs h => exact .connective s hcs (Nat.le_trans hle h)

/-! ### Rungs -/

/-- Two operands, read before `cs` and before `mid`, with the connective between them. -/
structure Operands (g : Inner) (s : Connective) (cs mid rest : List Char)
    (left right : Expression → Prop) : Prop where
  left : Reads (coerced g) cs (s.before mid) left
  solid : Solid mid
  noLess : ¬ ['<'] <+: mid
  length_le : rest.length ≤ mid.length
  right : Reads (coerced g) mid rest right
  closed : Closed rest

/-- The parser reads one operand, or two with a connective of a rung before the bound. -/
structure ReadsRung (g : Inner) (bound : Nat) (p : Parser Expression) : Prop where
  single : ∀ {cs rest holds}, Reads (coerced g) cs rest holds → Behind bound rest →
    Reads p cs rest holds
  pair : ∀ {s cs mid rest left right}, Operands g s cs mid rest left right → s.rung < bound →
    Reads p cs rest (s.Joins left right)
  barren : ∀ cs, Barren cs → Fails p cs

/-- The parser reads an operator of a rung with its right operand. -/
structure ReadsOperation (rung : Nat) (operand : Parser Expression)
    (p : Parser (String × Expression)) : Prop where
  own : ∀ {s : Connective} {mid rest right}, s.rung = rung → Solid mid →
    Reads operand mid rest right →
    Reads p (s.before mid) rest fun r => ∃ o, s = .operator o ∧ r.1 = o.text ∧ right r.2
  stopped : ∀ cs, Behind (rung + 1) cs → Fails p cs

theorem ReadsOperation.of_signs {tier : Nat} {operator : Parser String}
    {operand : Parser Expression} (hoperator : ReadsSigns tier operator)
    (hbarren : ∀ cs, Barren cs → Fails operand cs) :
    ReadsOperation (Connective.rungOf tier) operand (do
      let operation ← operator
      let right ← operand
      pure (operation, right)) where
  own {s mid rest right} hs hmid hoperand := by
    cases s with
    | range _ => exact absurd hs.symm (Connective.rungOf_ne_rangeRung tier)
    | operator o =>
      have htier : o.tier = tier := Connective.eq_of_rungOf_eq hs
      exact (hoperator.own o oneBlank mid hmid htier).bind fun _ ho => hoperand.bind
        fun _ he => Reads.pure ⟨o, rfl, ho, he⟩
  stopped cs hcs := by
    cases hcs with
    | closed h => exact (hoperator.ending cs h.ending).bind
    | @connective cs s hcs h =>
      cases s with
      | range inclusive =>
        exact (hoperator.ending _ (Connective.ending_before_range inclusive cs)).bind
      | operator o =>
        have htier : tier < o.tier := Connective.rungOf_lt_iff.mp h
        -- a looser operator is not read, or it is torn and no operand starts with its rest
        rcases hoperator.looser o oneBlank cs hcs htier with hfail | ⟨cs', hreads, hcs'⟩
        · exact hfail.bind
        · exact Fails.bind_after hreads fun _ _ => (hbarren cs' hcs').bind

variable {g : Inner}

/-- A rung over a rung. -/
theorem ReadsRung.chain {rung : Nat} {operand : Parser Expression}
    {others : Parser (String × Expression)} (hoperand : ReadsRung g rung operand)
    (hothers : ReadsOperation rung operand others) :
    ReadsRung g (rung + 1) (chain operand others) where
  single hone hrest := by
    refine (hoperand.single hone (hrest.mono (Nat.le_succ rung))).bind fun first hfirst => ?_
    refine (Reads.many_none (hothers.stopped _ hrest)).bind fun rounds hrounds => Reads.pure ?_
    rw [hrounds]
    exact hfirst
  pair {s cs mid rest left right} h hrung := by
    have hstop := hothers.stopped rest (.closed h.closed)
    rcases Nat.lt_or_eq_of_le (Nat.le_of_lt_succ hrung) with hlt | heq
    · -- the operand is the pair already
      refine (hoperand.pair h hlt).bind fun first hfirst => ?_
      refine (Reads.many_none hstop).bind fun rounds hrounds => Reads.pure ?_
      rw [hrounds]
      exact hfirst
    · -- one round reads the connective
      have hleft := hoperand.single h.left (.connective s h.solid (Nat.le_of_eq heq.symm))
      have hround := hothers.own heq h.solid (hoperand.single h.right (.closed h.closed))
      have hrounds : Repeats others (s.before mid) rest fun rounds =>
          ∃ o r, s = .operator o ∧ rounds = [(o.text, r)] ∧ right r := by
        refine Repeats.round hround (Nat.lt_of_le_of_lt h.length_le (s.length_before mid))
          (Repeats.stop hstop rfl) ?_
        rintro ⟨operation, r⟩ _ ⟨o, rfl, rfl, hr⟩ rfl
        exact ⟨o, r, rfl, rfl, hr⟩
      refine hleft.bind fun l hl => hrounds.many.bind ?_
      rintro _ ⟨o, r, rfl, rfl, hr⟩
      exact Reads.pure ⟨l, r, _, rfl, hl, hr⟩
  barren cs hcs := (hoperand.barren cs hcs).bind

theorem ReadsRung.tier {tier : Nat} {operand : Parser Expression} {operator : Parser String}
    (hoperand : ReadsRung g (Connective.rungOf tier) operand)
    (hoperator : ReadsSigns tier operator) :
    ReadsRung g (Connective.rungOf tier + 1) (Grammar.tier operand operator) :=
  hoperand.chain (ReadsOperation.of_signs hoperator hoperand.barren)

/-! ### The rungs of the grammar -/

variable (g)

theorem coerced_readsRung : ReadsRung g 0 (coerced g) where
  single hone _ := hone
  pair _ hrung := absurd hrung (Nat.not_lt_zero _)
  barren _ hcs := hcs.coerced g

theorem shift_readsRung : ReadsRung g 4 (shift g) :=
  let hpower : ReadsRung g 1 (power g) := (coerced_readsRung g).tier power_readsSigns
  let hmultiplicative : ReadsRung g 2 (multiplicative g) := hpower.tier multiplicative_readsSigns
  let hadditive : ReadsRung g 3 (additive g) := hmultiplicative.tier additive_readsSigns
  hadditive.tier shift_readsSigns

/-- Of the two signs of a range one starts with the other. -/
theorem rangeSign_reads (inclusive : Bool) {mid : List Char} (hmid : Solid mid)
    (hless : ¬ ['<'] <+: mid) :
    Reads (orElse (do symbol "..<"; pure false) (do symbol ".."; pure true))
      ((Connective.range inclusive).before mid) mid (· = inclusive) := by
  have hsolid := Connective.solid_before (.range inclusive) mid
  cases inclusive with
  | false =>
    exact Reads.orElse_left ((Reads.symbol_tight (s := "..<") hsolid hmid).bind
      fun _ _ => Reads.pure rfl)
  | true =>
    refine Reads.orElse_right (Fails.bind (Fails.symbol hsolid fun h => hless ?_))
      ((Reads.symbol_tight (s := "..") hsolid hmid).bind fun _ _ => Reads.pure rfl)
    exact (List.prefix_append_right_inj ['.', '.']).mp h

theorem rangeSign_fails {cs : List Char} (h : Behind 5 cs) :
    Fails (orElse (do symbol "..<"; pure false) (do symbol ".."; pure true)) cs := by
  cases h with
  | closed h =>
    have hpoint : ∀ c ∈ cs.head?, (c == '.') = false := forall_of_heads h (by decide)
    exact Fails.orElse
      (Fails.symbol (s := "..<") h.ending.solid (not_starts_of_head (by decide) hpoint)).bind
      (Fails.symbol (s := "..") h.ending.solid (not_starts_of_head (by decide) hpoint)).bind
  | connective s hcs h =>
    cases s with
    | range _ => exact absurd h (Nat.not_succ_le_self Connective.rangeRung)
    | operator o =>
      exact Fails.orElse (symbol_operatorText (s := "..<") (by decide) o oneBlank _).bind
        (symbol_operatorText (s := "..") (by decide) o oneBlank _).bind

theorem range_readsRung : ReadsRung g 5 (range g) where
  single hone hrest := by
    refine ((shift_readsRung g).single hone (hrest.mono (by decide))).bind fun first hfirst => ?_
    refine (Reads.optional_none (rangeSign_fails hrest).bind).bind fun last hlast => ?_
    rw [hlast]
    exact Reads.pure hfirst
  pair {s cs mid rest left right} h hrung := by
    have hend := rangeSign_fails (.closed h.closed)
    rcases Nat.lt_or_eq_of_le (Nat.le_of_lt_succ hrung) with hlt | heq
    · -- the bound is the pair already
      refine ((shift_readsRung g).pair h hlt).bind fun first hfirst => ?_
      refine (Reads.optional_none hend.bind).bind fun last hlast => ?_
      rw [hlast]
      exact Reads.pure hfirst
    · cases s with
      | operator o => exact absurd heq (Connective.rungOf_ne_rangeRung o.tier)
      | range inclusive =>
        have hfirst := (shift_readsRung g).single h.left
          (.connective (.range inclusive) h.solid (Nat.le_refl _))
        have hlast := (shift_readsRung g).single h.right (.closed h.closed)
        have hrange : Reads
            (do
              let inclusive ← orElse (do symbol "..<"; pure false) (do symbol ".."; pure true)
              let last ← shift g
              pure (inclusive, last)) ((Connective.range inclusive).before mid) rest fun r =>
            r.1 = inclusive ∧ right r.2 :=
          (rangeSign_reads inclusive h.solid h.noLess).bind fun _ hi => hlast.bind
            fun _ hr => Reads.pure ⟨hi, hr⟩
        have hsome : Reads (optional _) ((Connective.range inclusive).before mid) rest fun last =>
            ∃ r, last = some (inclusive, r) ∧ right r :=
          hrange.optional fun r hr => ⟨r.2, congrArg some (Prod.ext hr.1 rfl), hr.2⟩
        refine hfirst.bind fun l hl => hsome.bind ?_
        rintro _ ⟨r, rfl, hr⟩
        exact Reads.pure ⟨l, r, _, rfl, hl, hr⟩
  barren cs hcs := ((shift_readsRung g).barren cs hcs).bind

theorem relational_readsRung : ReadsRung g 6 (relational g) := by
  -- a round can be a type test too, but its keyword is no connective
  have hrounds : ReadsOperation 5 (range g) _ :=
    ReadsOperation.of_signs relational_readsSigns (range_readsRung g).barren
  refine (range_readsRung g).chain ⟨fun hs hmid hoperand => ?_, fun cs hcs => ?_⟩
  · exact (hrounds.own hs hmid hoperand).orElse_left
  · refine Fails.orElse (hrounds.stopped cs hcs) (Fails.bind (Fails.bind ?_))
    cases hcs with
    | closed h => exact h.ending.keyword "instanceof"
    | connective s _ _ => exact s.keyword_before (by decide) _

theorem logicalOr_readsRung : ReadsRung g 12 (logicalOr g) :=
  let hequality : ReadsRung g 7 (equality g) := (relational_readsRung g).tier equality_readsSigns
  let hand : ReadsRung g 8 (bitwiseAnd g) := hequality.tier bitwiseAnd_readsSigns
  let hxor : ReadsRung g 9 (bitwiseXor g) := hand.tier bitwiseXor_readsSigns
  let hor : ReadsRung g 10 (bitwiseOr g) := hxor.tier bitwiseOr_readsSigns
  let hlogicalAnd : ReadsRung g 11 (logicalAnd g) := hor.tier logicalAnd_readsSigns
  hlogicalAnd.tier logicalOr_readsSigns

/-- No connective is a conditional. -/
theorem conditionalBranches_fails {cs : List Char} {bound : Nat} (h : Behind bound cs) :
    Fails (conditionalBranches g) cs := by
  cases h with
  | closed h =>
    exact Fails.orElse (h.ending.symbol (s := "?:") (by decide)).bind
      (h.ending.symbol (s := "?") (by decide)).bind
  | connective s _ _ =>
    exact Fails.orElse (s.symbol_before (s := "?:") (by decide) (by decide) _).bind
      (s.symbol_before (s := "?") (by decide) (by decide) _).bind

theorem conditional_readsRung : ReadsRung g 12 (conditional g) where
  single hone hrest := by
    refine ((logicalOr_readsRung g).single hone hrest).bind fun condition hcondition => ?_
    refine (Reads.optional_none (conditionalBranches_fails g hrest)).bind fun branches hnone => ?_
    rw [hnone]
    exact Reads.pure hcondition
  pair h hrung := by
    refine ((logicalOr_readsRung g).pair h hrung).bind fun condition hcondition => ?_
    have hend : Behind 0 _ := .closed h.closed
    refine (Reads.optional_none (conditionalBranches_fails g hend)).bind fun branches hnone => ?_
    rw [hnone]
    exact Reads.pure hcondition
  barren cs hcs := ((logicalOr_readsRung g).barren cs hcs).bind

/-! ### Expressions -/

/-- One operand is an expression. -/
theorem expression_single {cs rest : List Char} {holds : Expression → Prop}
    (hone : Reads (coerced g) cs rest holds) (hrest : Closed rest) :
    Reads (expression g) cs rest holds := by
  refine ((conditional_readsRung g).single hone (.closed hrest)).bind fun target htarget => ?_
  refine (Reads.optional_none (assignment_readsSigns.ending rest hrest.ending).bind).bind
    fun assigned hnone => ?_
  rw [hnone]
  exact Reads.pure htarget

/-- Two operands with a connective are an expression, if the second one is one by itself. -/
theorem expression_pair {s : Connective} {cs mid rest : List Char}
    {left right : Expression → Prop} (h : Operands g s cs mid rest left right)
    (hvalue : Reads g.expression mid rest right) :
    Reads (expression g) cs rest (s.Joins left right) := by
  by_cases hrung : s.rung < 12
  · -- the target is the pair already, and no assignment follows it
    refine ((conditional_readsRung g).pair h hrung).bind fun target htarget => ?_
    refine (Reads.optional_none (assignment_readsSigns.ending rest h.closed.ending).bind).bind
      fun assigned hnone => ?_
    rw [hnone]
    exact Reads.pure htarget
  · cases s with
    | range _ => exact absurd (show Connective.rangeRung < 12 by decide) hrung
    | operator o =>
      have htier : o.tier = assignmentTier :=
        Nat.le_antisymm o.tier_le (Nat.le_of_not_lt fun hlt =>
          hrung (Connective.rungOf_lt_iff.mpr hlt))
      have htarget := (conditional_readsRung g).single h.left
        (.connective (.operator o) h.solid (Nat.le_of_not_lt hrung))
      have hassigned : Reads
          (do
            let operation ← signs "**=" ["+=", "-=", "*=", "/=", "%=", "="]
            let value ← g.expression
            pure (operation, value)) ((Connective.operator o).before mid) rest fun r =>
          r.1 = o.text ∧ right r.2 :=
        (assignment_readsSigns.own o oneBlank mid h.solid htier).bind fun _ ho => hvalue.bind
          fun _ hv => Reads.pure ⟨ho, hv⟩
      have hsome : Reads (optional _) ((Connective.operator o).before mid) rest fun assigned =>
          ∃ value, assigned = some (o.text, value) ∧ right value :=
        hassigned.optional fun r hr => ⟨r.2, congrArg some (Prod.ext hr.1 rfl), hr.2⟩
      refine htarget.bind fun l hl => hsome.bind ?_
      rintro _ ⟨value, rfl, hv⟩
      exact Reads.pure ⟨l, value, _, rfl, hl, hv⟩

end ScriptOutline.Grammar
