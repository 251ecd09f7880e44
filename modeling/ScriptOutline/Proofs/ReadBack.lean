/-
ScriptOutline/Proofs/ReadBack.lean

The text of a formula is read back as the formula.

The induction is on the formula.  What it proves of a formula (`ReadsSuffixed`) is about the
formula with any suffixes behind it, since an index reads its object as the start of itself.
Every other part of a formula ends where it is followed by a connective or a closing bracket
(`Follows`), and then the formula is an operand.  A bracket and an assignment take one level of
nesting each, and a pair is written with more characters than that; so its text covers the
levels it needs.

The main result is `parse_text`.
-/
import ScriptOutline.Proofs.Formula
import ScriptOutline.Proofs.Precedence

namespace ScriptOutline.Grammar

open ScriptOutline.Grammar.Parser

/-! ### Behind a formula -/

/-- The blanks and the text behind an operand, if it ends there. -/
structure Follows (gap rest : List Char) : Prop where
  blank : ∀ c ∈ gap, isBlank c = true
  solid : Solid rest
  apart : Apart (gap ++ rest)
  suffix : ∀ g, Fails (suffix g) rest
  noCast : Fails (keyword "as") rest

theorem Closed.follows {rest : List Char} (h : Closed rest) : Follows [] rest where
  blank := List.forall_mem_nil _
  solid := h.ending.solid
  apart := h.apart
  suffix g := by
    have hsigns : ∀ s ∈ suffixSigns, s.toList.head?.any (fun c => c != ')' && c != ']') := by
      decide
    exact suffix_of_signs g fun s hs => Fails.symbol h.ending.solid
      (not_starts_of_head (hsigns s hs) (forall_of_heads h (by decide)))
  noCast := h.ending.keyword "as"

/-- Two points are no suffix, though one would start some. -/
theorem suffix_points (g : Inner) (cs : List Char) : Fails (suffix g) ('.' :: '.' :: cs) := by
  have hsolid : Solid ('.' :: cs) := Solid.cons (by decide) (by decide)
  have hsigns : ∀ s ∈ suffixSigns, s ≠ "." → ¬ s.toList.take 2 <+: ['.', '.'] := by decide
  have hother : ∀ s ∈ suffixSigns, s ≠ "." → Fails (symbol s) ('.' :: '.' :: cs) :=
    fun s hs hne => Fails.symbol (Solid.cons (by decide) (by decide)) fun h =>
      hsigns s hs hne (List.prefix_of_prefix_length_le ((List.take_prefix 2 _).trans h)
        (List.prefix_append ['.', '.'] cs) (List.length_take_le 2 _))
  have hpoint : Reads (symbol ".") ('.' :: '.' :: cs) ('.' :: cs) fun _ => True :=
    Reads.symbol_tight (s := ".") (Solid.cons (by decide) (by decide)) hsolid
  have hname : ∀ c ∈ ('.' :: cs).head?, isNameStart c = false := by
    rintro c ⟨⟩
    decide
  -- the suffixes that take a single point take the first one, and want a name behind it
  refine Fails.firstOf (hother ".&" (by decide) (by decide)).bind ?_
  simp only [List.forall_mem_cons, List.not_mem_nil, false_implies, implies_true, and_true]
  refine ⟨?_, ?_, ?_, ?_, ?_, ?_⟩
  · exact (hother ".@" (by decide) (by decide)).bind
  · exact (Fails.bind_after hpoint fun _ _ => Fails.keyword hsolid hname).spanned.bind
  · have haccessor : Reads accessor ('.' :: '.' :: cs) ('.' :: cs) fun _ => True :=
      Reads.firstOf_skip (hother "?." (by decide) (by decide)).bind
        (Reads.firstOf_skip (hother "*." (by decide) (by decide)).bind
          (Reads.firstOf_head (hpoint.bind fun _ _ => Reads.pure trivial)))
    exact Fails.bind_after haccessor fun _ _ => (Fails.identifier hsolid hname).spanned.bind.bind
  · exact (hother "(" (by decide) (by decide)).bind.bind.spanned.bind.bind
  · exact (hother "[" (by decide) (by decide)).bind.spanned.bind
  · exact (Fails.orElse (hother "++" (by decide) (by decide)).bind
      (hother "--" (by decide) (by decide)).bind).spanned.bind

theorem Connective.follows (s : Connective) (cs : List Char) : Follows s.blanks (s.before cs) where
  blank := by
    cases s with
    | operator _ => exact oneBlank.blank
    | range _ => exact List.forall_mem_nil _
  solid := s.solid_before cs
  apart := s.apart cs
  suffix g := by
    cases s with
    | operator o =>
      exact suffix_of_signs g fun s hs =>
        symbol_operatorText (isForeign_of_mem_suffixSigns s hs) o oneBlank cs
    | range inclusive => cases inclusive <;> exact suffix_points g _
  noCast := s.keyword_before (by decide) cs

/-! ### Before a formula -/

/-- No keyword stands at the start of a formula. -/
theorem Formula.keyword {e : Expression} (h : Formula e) {w : String} (hw : w ∈ keywords)
    {tail : List Char} (htail : Apart tail) :
    Fails (Grammar.keyword w) (e.text.toList ++ tail) := by
  induction h using Formula.induction generalizing tail with
  | name x span =>
    rw [text_name]
    exact keyword_name x hw htail.part
  | integer n span hn =>
    refine Fails.keyword ((Formula.integer n hn span).solid tail) ?_
    rw [text_integer]
    exact toDigits_noName n tail
  | pair s l r span hl hr =>
    refine Fails.keyword ((Formula.pair s span hl hr).solid tail) ?_
    rw [text_pair]
    rintro c ⟨⟩
    decide
  | index l r span hl hr ihl =>
    rw [text_index_append]
    exact ihl (Apart.cons (by decide) (by decide) _)

/-- A pair in brackets is no type in brackets. -/
theorem Formula.typeInBrackets {l r : Expression} (hl : Formula l) (hr : Formula r)
    (s : Connective) (n : Nat) (tail : List Char) :
    Fails (between "(" (typeName (level n)) ")")
      ('(' :: (l.text.toList ++ (s.blanks ++ s.before (r.text.toList ++ (')' :: tail))))) := by
  have hclosed : Closed (')' :: tail) := by
    rintro c ⟨⟩
    decide
  have hfollows := s.follows (r.text.toList ++ (')' :: tail))
  refine Fails.bind_after (Reads.symbol_tight (s := "(") (Solid.cons (by decide) (by decide))
    (hl.solid _)) fun _ _ => ?_
  rcases hl.typeName_or hfollows.blank (hr.endsType_before n s hclosed) hfollows.apart with
    hfail | ⟨rest, hreads, hrest⟩
  · exact hfail.bind
  · -- a connective or an index stands where the bracket should close
    have hclose := hrest.symbol (s := ")") (by decide)
      (s.symbol_before (by decide) (by decide) _)
    exact Fails.bind_after hreads fun _ _ => hclose.bind

theorem Formula.cast_fails {e : Expression} (h : Formula e) (n : Nat) {tail : List Char}
    (htail : Apart tail) : Fails (cast (level n)) (e.text.toList ++ tail) := by
  induction h using Formula.induction generalizing tail with
  | name x span =>
    rw [text_name]
    exact (unmarked_name x htail.part).cast (level n)
  | integer n' span hn =>
    have hsolid := (Formula.integer n' hn span).solid tail
    obtain ⟨c, cs, hc, hdigit⟩ := toDigits_starts n'
    rw [text_integer, hc] at hsolid ⊢
    have hbracket : ¬ ['('] <+: c :: (cs ++ tail) := by
      refine not_starts_of_head (f := fun c => !c.isDigit) (by decide) ?_
      rintro d ⟨⟩
      simp [hdigit]
    exact (Fails.accepted (Fails.symbol (s := "(") hsolid hbracket).bind).bind.spanned.bind
  | pair s l r span hl hr =>
    rw [text_pair_append]
    exact (Fails.accepted (hl.typeInBrackets hr s n tail)).bind.spanned.bind
  | index l r span hl hr ihl =>
    rw [text_index_append]
    exact ihl (Apart.cons (by decide) (by decide) _)

/-! ### Operands -/

/-- An expression with some suffixes. -/
def applyAll (object : Expression) (suffixes : List (Suffix × Nat)) : Expression :=
  suffixes.foldl (fun object x => x.1.apply object x.2) object

theorem suffixed_of_primary {g : Inner} {cs mid rest : List Char}
    {holds after : Expression → Prop} (hprimary : Reads (primary g) cs mid holds)
    (hsuffixes : Repeats (suffix g) mid rest fun xs => ∀ e, holds e → after (applyAll e xs)) :
    Reads (suffixed g) cs rest after :=
  hprimary.bind fun e he => hsuffixes.many.bind fun _ hxs => Reads.pure (hxs e he)

/-- A primary with its suffixes is an operand, if no cast stands around it. -/
theorem coerced_of_suffixed {g : Inner} {cs rest : List Char} {holds : Expression → Prop}
    (hcast : Fails (cast g) cs) (hsuffixed : Reads (suffixed g) cs rest holds)
    (hrest : Fails (keyword "as") rest) : Reads (coerced g) cs rest holds := by
  have hunary : Reads (unary g) cs rest holds := (hsuffixed.orElse_right hcast).orElse_left
  refine hunary.bind fun e he => ?_
  refine (Reads.many_none hrest.bind.spanned.bind).bind fun targets hnone => Reads.pure ?_
  rw [hnone]
  exact he

/-- Square brackets around what the parser reads. -/
theorem Reads.inBrackets {α : Type} {p : Parser α} {cs gap mid : List Char} {holds : α → Prop}
    (hp : Reads p cs (']' :: (gap ++ mid)) holds) (hcs : Solid cs)
    (hgap : ∀ c ∈ gap, isBlank c = true) (hmid : Solid mid) :
    Reads (between "[" p "]") ('[' :: cs) mid holds := by
  have hopen : Reads (Grammar.symbol "[") ('[' :: cs) cs fun _ => True :=
    Reads.symbol_tight (s := "[") (Solid.cons (by decide) (by decide)) hcs
  refine hopen.bind fun _ _ => hp.bind fun x hx => ?_
  exact (Reads.symbol (s := "]") (Solid.cons (by decide) (by decide)) hgap hmid).bind
    fun _ _ => Reads.pure hx

/-- An index behind an object. -/
theorem suffix_index {g : Inner} {cs gap mid : List Char} {holds : Expression → Prop}
    (hcs : Solid cs) (hindex : Reads g.expression cs (']' :: (gap ++ mid)) holds)
    (hgap : ∀ c ∈ gap, isBlank c = true) (hmid : Solid mid) :
    Reads (suffix g) ('[' :: cs) mid fun x => ∃ r, x.1 = .index r ∧ holds r := by
  have hsolid : Solid ('[' :: cs) := Solid.cons (by decide) (by decide)
  have hsigns : ∀ s ∈ suffixSigns, s ≠ "[" → s.toList.head?.any (· != '[') := by decide
  have hother : ∀ s ∈ suffixSigns, s ≠ "[" → Fails (symbol s) ('[' :: cs) :=
    fun s hs hne => Fails.symbol hsolid
      (not_starts_of_head (hsigns s hs hne) (by rintro c ⟨⟩; decide))
  have hbrackets : Reads (between "[" g.expression "]") ('[' :: cs) mid holds :=
    hindex.inBrackets hcs hgap hmid
  have haccessor : Fails accessor ('[' :: cs) := by
    refine Fails.firstOf (hother "?." (by decide) (by decide)).bind ?_
    simp only [List.forall_mem_cons, List.not_mem_nil, false_implies, implies_true, and_true]
    exact ⟨(hother "*." (by decide) (by decide)).bind, (hother "." (by decide) (by decide)).bind⟩
  refine Reads.firstOf_skip (hother ".&" (by decide) (by decide)).bind ?_
  refine Reads.firstOf_skip (hother ".@" (by decide) (by decide)).bind ?_
  refine Reads.firstOf_skip (hother "." (by decide) (by decide)).bind.spanned.bind ?_
  refine Reads.firstOf_skip haccessor.bind ?_
  refine Reads.firstOf_skip (hother "(" (by decide) (by decide)).bind.bind.spanned.bind.bind ?_
  exact Reads.firstOf_head (hbrackets.spanned.bind fun x hx => Reads.pure ⟨x.1, rfl, hx⟩)

/-- The formula is read with the suffixes behind it. -/
def ReadsSuffixed (e : Expression) : Prop :=
  ∀ n, e.text.toList.length ≤ n → ∀ (gap mid rest : List Char) (after : Expression → Prop),
    (∀ c ∈ gap, isBlank c = true) → Solid mid → Apart (gap ++ mid) →
    (Repeats (suffix (level n)) mid rest fun xs =>
      ∀ e', e'.unplaced = e.unplaced → after (applyAll e' xs)) →
    Reads (suffixed (level n)) (e.text.toList ++ (gap ++ mid)) rest after

/-- Where a formula ends, it is an operand. -/
theorem ReadsSuffixed.coerced {e : Expression} (hs : ReadsSuffixed e) (h : Formula e) {n : Nat}
    (hn : e.text.toList.length ≤ n) {gap rest : List Char} (hrest : Follows gap rest) :
    Reads (coerced (level n)) (e.text.toList ++ (gap ++ rest)) rest
      (·.unplaced = e.unplaced) := by
  have hsuffixed := hs n hn gap rest rest (·.unplaced = e.unplaced) hrest.blank hrest.solid
    hrest.apart (Repeats.stop (hrest.suffix _) fun e' he' => he')
  exact coerced_of_suffixed (h.cast_fails n hrest.apart) hsuffixed hrest.noCast

theorem ReadsSuffixed.coerced_closed {e : Expression} (hs : ReadsSuffixed e) (h : Formula e)
    {n : Nat} (hn : e.text.toList.length ≤ n) {rest : List Char} (hrest : Closed rest) :
    Reads (Grammar.coerced (level n)) (e.text.toList ++ rest) rest (·.unplaced = e.unplaced) := by
  have hone := hs.coerced h hn hrest.follows
  rwa [List.nil_append] at hone

/-- Before a closing bracket a formula is an expression. -/
theorem ReadsSuffixed.expression {e : Expression} (hs : ReadsSuffixed e) (h : Formula e)
    {n : Nat} (hn : e.text.toList.length ≤ n) {rest : List Char} (hrest : Closed rest) :
    Reads (Grammar.expression (level n)) (e.text.toList ++ rest) rest
      (·.unplaced = e.unplaced) :=
  expression_single (level n) (hs.coerced_closed h hn hrest) hrest

/-- Two formulas with a connective are an expression. -/
theorem ReadsSuffixed.pair {l r : Expression} (hsl : ReadsSuffixed l) (hsr : ReadsSuffixed r)
    (hl : Formula l) (hr : Formula r) (s : Connective) {n : Nat}
    (hnl : l.text.toList.length ≤ n + 1) (hnr : r.text.toList.length ≤ n) {rest : List Char}
    (hrest : Closed rest) :
    Reads (Grammar.expression (level (n + 1)))
      (l.text.toList ++ (s.blanks ++ s.before (r.text.toList ++ rest))) rest
      (s.Joins (·.unplaced = l.unplaced) (·.unplaced = r.unplaced)) := by
  have hoperands : Operands (level (n + 1)) s
      (l.text.toList ++ (s.blanks ++ s.before (r.text.toList ++ rest))) (r.text.toList ++ rest)
      rest (·.unplaced = l.unplaced) (·.unplaced = r.unplaced) :=
    { left := hsl.coerced hl hnl (s.follows _)
      solid := hr.solid rest
      noLess := hr.not_starts rest (by decide)
      length_le := by
        rw [List.length_append]
        exact Nat.le_add_left _ _
      right := hsr.coerced_closed hr (Nat.le_succ_of_le hnr) hrest
      closed := hrest }
  -- the right operand of an assignment is one level further inside
  exact expression_pair (level (n + 1)) hoperands (hsr.expression hr hnr hrest)

/-! ### Formulas -/

theorem readsSuffixed_name (x : Name) (span : Span) :
    ReadsSuffixed (.written (.variableRef x.text none none) span) := by
  intro n _ gap mid rest after hgap hmid hapart hsuffixes
  rw [text_name]
  have hunmarked := unmarked_name x hapart.part
  have hname : Reads variableName (x.chars ++ (gap ++ mid)) mid fun e =>
      e.unplaced = (Expression.written (.variableRef x.text none none) span).unplaced := by
    refine (identifier_name x hgap hmid hapart.part).spanned.bind fun y hy => Reads.pure ?_
    rw [hy]
    rfl
  exact suffixed_of_primary (Reads.firstOf_tail (hunmarked.unopened.literal _)
    (hunmarked.beforeName _) hname []) hsuffixes

theorem readsSuffixed_integer {m : Nat} (hm : m < Nat.pow 2 63) (span : Span) :
    ReadsSuffixed (.written (.constant (.integer m)) span) := by
  intro n _ gap mid rest after hgap hmid hapart hsuffixes
  have hsolid := (Formula.integer m hm span).solid (gap ++ mid)
  rw [text_integer] at hsolid ⊢
  have hliteral : Reads (literal (level n)) (Nat.toDigits 10 m ++ (gap ++ mid)) mid fun e =>
      e.unplaced = (Expression.written (.constant (.integer m)) span).unplaced := by
    refine Reads.firstOf_head ((Reads.token hsolid (number_toDigits hm hapart) hgap
      hmid).spanned.bind fun y hy => Reads.pure ?_)
    rw [hy]
    rfl
  exact suffixed_of_primary (Reads.firstOf_head hliteral) hsuffixes

theorem unopened_bracket (cs : List Char) : Unopened ('(' :: cs) where
  solid := Solid.cons (by decide) (by decide)
  head := by rintro c ⟨⟩; decide
  keyword _ _ := Fails.keyword (Solid.cons (by decide) (by decide)) (by rintro c ⟨⟩; decide)

theorem ReadsSuffixed.node {l r : Expression} (hsl : ReadsSuffixed l) (hsr : ReadsSuffixed r)
    (hl : Formula l) (hr : Formula r) (s : Connective) (span : Span) :
    ReadsSuffixed (.written (s.node l r) span) := by
  intro n hn gap mid rest after hgap hmid _ hsuffixes
  have hlength := length_text_pair s l r span
  -- one level for the brackets, and one more for the right operand of an assignment
  obtain ⟨m, rfl⟩ : ∃ m, n = m + 2 := Nat.exists_eq_add_of_le' (by omega)
  have hclosed : Closed (')' :: (gap ++ mid)) := by rintro c ⟨⟩; decide
  have hcontent := hsl.pair hsr hl hr s (n := m) (by omega) (by omega) hclosed
  have hbrackets : Reads (between "(" (level (m + 2)).expression ")")
      ('(' :: (l.text.toList ++ (s.blanks ++ s.before (r.text.toList ++ (')' :: (gap ++ mid))))))
      mid fun e => e.unplaced = (Expression.written (s.node l r) span).unplaced := by
    refine (Reads.symbol_tight (s := "(") (Solid.cons (by decide) (by decide))
      (hl.solid _)).bind fun _ _ => hcontent.bind ?_
    rintro _ ⟨l', r', span', rfl, hl', hr'⟩
    refine (Reads.symbol (s := ")") (Solid.cons (by decide) (by decide)) hgap hmid).bind
      fun _ _ => Reads.pure ?_
    rw [unplaced_node, unplaced_node, hl', hr']
  have hunopened := unopened_bracket
    (l.text.toList ++ (s.blanks ++ s.before (r.text.toList ++ (')' :: (gap ++ mid)))))
  rw [text_pair_append]
  exact suffixed_of_primary (Reads.firstOf_tail (hunopened.literal _)
    (hunopened.beforeBrackets _) hbrackets [variableName]) hsuffixes

theorem ReadsSuffixed.index {l r : Expression} (hsl : ReadsSuffixed l) (hsr : ReadsSuffixed r)
    (hr : Formula r) (span : Span) : ReadsSuffixed (.written (.binary l "[" r) span) := by
  intro n hn gap mid rest after hgap hmid _ hsuffixes
  have hlength := length_text_index l r span
  obtain ⟨m, rfl⟩ : ∃ m, n = m + 1 := Nat.exists_eq_add_of_le' (by omega)
  have hclosed : Closed (']' :: (gap ++ mid)) := by rintro c ⟨⟩; decide
  have hindex := suffix_index (g := level (m + 1)) (hr.solid (']' :: (gap ++ mid)))
    (hsr.expression hr (n := m) (by omega) hclosed) hgap hmid
  rw [text_index_append]
  refine hsl (m + 1) (by omega) [] ('[' :: (r.text.toList ++ (']' :: (gap ++ mid)))) rest after
    (List.forall_mem_nil _) (Solid.cons (by decide) (by decide))
    (Apart.cons (by decide) (by decide) _) ?_
  refine Repeats.round hindex ?_ hsuffixes ?_
  · simp only [List.length_cons, List.length_append]
    omega
  · rintro ⟨_, stop⟩ xs ⟨r', rfl, hr'⟩ hxs l' hl'
    refine hxs _ ?_
    rw [unplaced_index, ← hl', ← hr']
    rfl

theorem Formula.readsSuffixed {e : Expression} (h : Formula e) : ReadsSuffixed e := by
  induction h using Formula.induction with
  | name x span => exact readsSuffixed_name x span
  | integer n span hn => exact readsSuffixed_integer hn span
  | pair s l r span hl hr ihl ihr => exact ihl.node ihr hl hr s span
  | index l r span hl hr ihl ihr => exact ihl.index ihr hr span

/-! ### Statements and scripts -/

section Script

variable {e : Expression} (h : Formula e)
include h

theorem Formula.undeclared : Undeclared e.text.toList where
  annotation := by simpa using h.symbol (s := "@") [] (by decide)
  block := by simpa using h.symbol (s := "\x7b") [] (by decide)
  keyword w hw _ := by simpa using h.keyword hw Closed.nil.apart

/-- A formula is no declaration: behind a name at its start there is the end or an index. -/
theorem Formula.untyped (g : Inner) : Untyped g e.text.toList := by
  have htype := h.typeName_or (List.forall_mem_nil _) (Closed.nil.endsType g) Closed.nil.apart
  rw [List.append_nil, List.append_nil] at htype
  refine htype.imp_right ?_
  rintro ⟨rest, hreads, hrest⟩
  exact ⟨rest, hreads, hrest.identifier (Fails.identifier Solid.nil (by simp))⟩

theorem Formula.statementNode {n : Nat} (hn : e.text.toList.length ≤ n) :
    Reads (statementNode (level n)) e.text.toList [] fun node =>
      ∃ e', node = .expression e' ∧ e'.unplaced = e.unplaced := by
  have hreturn : Fails (Grammar.keyword "return") e.text.toList := by
    simpa using h.keyword (w := "return") (by decide) Closed.nil.apart
  have hreads := h.readsSuffixed.expression h hn Closed.nil
  rw [List.append_nil] at hreads
  exact statementNode_of_expression h.undeclared hreturn (h.untyped _) hreads

theorem Formula.script {n : Nat} (hn : e.text.toList.length ≤ n) :
    Reads (script (level n)) e.text.toList [] fun script =>
      ∃ e' span, script = ⟨[⟨.expression e', span⟩], [], []⟩ ∧ e'.unplaced = e.unplaced := by
  obtain ⟨c, cs, hcs, -⟩ := h.head
  have hsolid := h.solid []
  rw [List.append_nil] at hsolid
  refine (script_of_node hsolid (hcs ▸ List.cons_ne_nil c cs) h.undeclared (h.untyped _)
    (h.statementNode hn)).mono ?_
  rintro script ⟨_, span, rfl, e', rfl, he'⟩
  exact ⟨e', span, rfl, he'⟩

/-- The text of a formula, as a whole source, is one statement, the formula. -/
theorem Formula.parse : ∃ e' span,
    Script.parse e.text = .ok ⟨[⟨.expression e', span⟩], [], []⟩ ∧ e'.unplaced = e.unplaced := by
  obtain ⟨_, hparse, e', span, rfl, he'⟩ := parse_of_script (h.script (Nat.le_succ _))
  rw [String.ofList_toList] at hparse
  exact ⟨e', span, hparse, he'⟩

end Script

/-- The text of a formula is read back as the formula, and no other formula has the text. -/
theorem parse_text {e : Expression} (h : Formula e) :
    (∃ e' span, Script.parse e.text = .ok ⟨[⟨.expression e', span⟩], [], []⟩ ∧
      e'.unplaced = e.unplaced) ∧
    ∀ f, Formula f → f.text = e.text → f.unplaced = e.unplaced := by
  refine ⟨h.parse, fun f hf htext => ?_⟩
  obtain ⟨e', span, hparse, he'⟩ := h.parse
  obtain ⟨f', span', hparse', hf'⟩ := hf.parse
  rw [htext, hparse] at hparse'
  cases hparse'
  rw [← hf', he']

/-- The formula `(a[(0..<10)] += (b < 2))`. -/
def sampleFormula : Expression :=
  .unwritten (.binary
    (.unwritten (.binary (.ofName "a") "["
      (.unwritten (.range (.unwritten (.constant (.integer 0)))
        (.unwritten (.constant (.integer 10))) false))))
    "+="
    (.unwritten (.binary (.ofName "b") "<" (.unwritten (.constant (.integer 2))))))

theorem formula_sampleFormula : Formula sampleFormula := by
  have ha : Formula (.ofName "a") := .name ⟨'a', [], by decide, by simp, by decide⟩ _
  have hb : Formula (.ofName "b") := .name ⟨'b', [], by decide, by simp, by decide⟩ _
  have hrange : Formula (.unwritten (.range (.unwritten (.constant (.integer 0)))
      (.unwritten (.constant (.integer 10))) false)) :=
    .range false _ (.integer 0 (by decide) _) (.integer 10 (by decide) _)
  exact .operation ⟨11, "+=", by decide⟩ _ (.index _ ha hrange)
    (.operation ⟨4, "<", by decide⟩ _ hb (.integer 2 (by decide) _))

theorem parse_text_sampleFormula :
    Formula sampleFormula ∧ sampleFormula.text = "(a[(0..<10)] += (b < 2))" ∧
    (∃ e' span, Script.parse "(a[(0..<10)] += (b < 2))" =
      .ok ⟨[⟨.expression e', span⟩], [], []⟩ ∧ e'.unplaced = sampleFormula.unplaced) ∧
    ∀ f, Formula f → f.text = "(a[(0..<10)] += (b < 2))" →
      f.unplaced = sampleFormula.unplaced := by
  have htext : sampleFormula.text = "(a[(0..<10)] += (b < 2))" := rfl
  have hparse := parse_text formula_sampleFormula
  rw [htext] at hparse
  exact ⟨formula_sampleFormula, htext, hparse⟩

end ScriptOutline.Grammar
