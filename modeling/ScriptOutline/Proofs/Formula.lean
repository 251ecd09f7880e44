/-
ScriptOutline/Proofs/Formula.lean

Formulas, and how their texts start.

A formula is an expression of names and integers, put together by operators, ranges and indices
(`Formula`); two formulas are the same up to their spans if `Expression.unplaced` is.  In the
text of a formula every pair of operands has brackets around it, so the text starts with a name,
a digit or a bracket, and behind a name at its start there is nothing but indices.

That is why the rules that come before expressions do not take a formula for something else.  A
type can be read from the name, but then an index or a connective stands where a name or a
closing bracket has to follow (`Formula.typeName_or`); and the generic arguments that `<` seems
to open are never closed (`Formula.generics`).
-/
import ScriptOutline.Code.Text
import ScriptOutline.Proofs.Connective

namespace ScriptOutline

/-! ### Formulas -/

/-- An expression without the spans of its operators and operands. -/
def Expression.unplaced : Expression → Expression
  | ⟨.binary left operation right, _, type⟩ =>
    ⟨.binary left.unplaced operation right.unplaced, .unwritten, type⟩
  | ⟨.range first last inclusive, _, type⟩ =>
    ⟨.range first.unplaced last.unplaced inclusive, .unwritten, type⟩
  | ⟨node, _, type⟩ => ⟨node, .unwritten, type⟩

namespace Grammar

open ScriptOutline.Grammar.Parser

/-- An expression of names and integers, connected by operators, ranges and indices. -/
inductive Formula : Expression → Prop where
  | name (x : Name) (span : Span) : Formula (.written (.variableRef x.text none none) span)
  | integer (n : Nat) (hn : n < Nat.pow 2 63) (span : Span) :
    Formula (.written (.constant (.integer n)) span)
  | operation (o : Operator) {left right : Expression} (span : Span) (hleft : Formula left)
    (hright : Formula right) : Formula (.written (.binary left o.text right) span)
  | range (inclusive : Bool) {first last : Expression} (span : Span) (hfirst : Formula first)
    (hlast : Formula last) : Formula (.written (.range first last inclusive) span)
  | index {object position : Expression} (span : Span) (hobject : Formula object)
    (hposition : Formula position) : Formula (.written (.binary object "[" position) span)

theorem unplaced_node (s : Connective) (l r : Expression) (span : Span) :
    (Expression.written (s.node l r) span).unplaced =
      .written (s.node l.unplaced r.unplaced) .unwritten := by
  cases s <;> rfl

theorem unplaced_index (l r : Expression) (span : Span) :
    (Expression.written (.binary l "[" r) span).unplaced =
      .written (.binary l.unplaced "[" r.unplaced) .unwritten := rfl

theorem Formula.pair (s : Connective) {l r : Expression} (span : Span) (hl : Formula l)
    (hr : Formula r) : Formula (.written (s.node l r) span) := by
  cases s with
  | operator o => exact .operation o span hl hr
  | range inclusive => exact .range inclusive span hl hr

/-- Induction with operators and ranges in one case. -/
theorem Formula.induction {motive : ∀ e, Formula e → Prop}
    (name : ∀ x span, motive _ (.name x span))
    (integer : ∀ n span hn, motive _ (.integer n hn span))
    (pair : ∀ s l r span hl hr, motive l hl → motive r hr → motive _ (.pair s span hl hr))
    (index : ∀ l r span hl hr, motive l hl → motive r hr → motive _ (.index span hl hr))
    {e : Expression} (h : Formula e) : motive e h := by
  induction h with
  | name x span => exact name x span
  | integer n hn span => exact integer n span hn
  | operation o span hl hr ihl ihr => exact pair (.operator o) _ _ span hl hr ihl ihr
  | range inclusive span hl hr ihl ihr => exact pair (.range inclusive) _ _ span hl hr ihl ihr
  | index span hl hr ihl ihr => exact index _ _ span hl hr ihl ihr

/-! ### Texts -/

theorem text_binary (l r : Expression) (operation : String) (span : Span) :
    (Expression.written (.binary l operation r) span).text =
      if operation = "[" then l.text ++ listed r.text
      else bracketed (l.text ++ " " ++ operation ++ " " ++ r.text) := rfl

theorem text_range (l r : Expression) (inclusive : Bool) (span : Span) :
    (Expression.written (.range l r inclusive) span).text =
      bracketed (l.text ++ Connective.rangeSign inclusive ++ r.text) := rfl

theorem text_name (x : Name) (span : Span) :
    (Expression.written (.variableRef x.text none none) span).text.toList = x.chars := by
  show x.text.toList = x.chars
  rw [Name.text, String.toList_ofList]

theorem text_integer (n : Nat) (span : Span) :
    (Expression.written (.constant (.integer n)) span).text.toList = Nat.toDigits 10 n := by
  show (toString n).toList = Nat.toDigits 10 n
  simp

theorem text_pair (s : Connective) (l r : Expression) (span : Span) :
    (Expression.written (s.node l r) span).text.toList =
      '(' :: (l.text.toList ++ (s.blanks ++ s.before (r.text.toList ++ [')']))) := by
  cases s with
  | operator o =>
    have hindex : o.text ≠ "[" := by
      have := o.all (f := fun _ t => t != "[") (by decide)
      simpa using this
    rw [Connective.node, text_binary, if_neg hindex]
    simp [bracketed, Connective.blanks, Connective.before, operatorText, oneBlank, Gap.chars]
  | range inclusive =>
    rw [Connective.node, text_range]
    simp [bracketed, Connective.blanks, Connective.before]

theorem text_index (l r : Expression) (span : Span) :
    (Expression.written (.binary l "[" r) span).text.toList =
      l.text.toList ++ ('[' :: (r.text.toList ++ [']'])) := by
  rw [text_binary, if_pos rfl]
  simp [listed]

theorem text_pair_append (s : Connective) (l r : Expression) (span : Span) (tail : List Char) :
    (Expression.written (s.node l r) span).text.toList ++ tail =
      '(' :: (l.text.toList ++ (s.blanks ++ s.before (r.text.toList ++ (')' :: tail)))) := by
  rw [text_pair, List.cons_append, List.append_assoc, List.append_assoc, s.before_append,
    List.append_assoc, List.singleton_append]

theorem text_index_append (l r : Expression) (span : Span) (tail : List Char) :
    (Expression.written (.binary l "[" r) span).text.toList ++ tail =
      l.text.toList ++ ('[' :: (r.text.toList ++ (']' :: tail))) := by
  rw [text_index, List.append_assoc, List.cons_append, List.append_assoc, List.singleton_append]

theorem length_text_pair (s : Connective) (l r : Expression) (span : Span) :
    l.text.toList.length + r.text.toList.length + 2 ≤
      (Expression.written (s.node l r) span).text.toList.length := by
  have hlt := s.length_before (r.text.toList ++ [')'])
  rw [text_pair]
  simp only [List.length_cons, List.length_append, List.length_nil] at hlt ⊢
  omega

theorem length_text_index (l r : Expression) (span : Span) :
    (Expression.written (.binary l "[" r) span).text.toList.length =
      l.text.toList.length + r.text.toList.length + 2 := by
  rw [text_index]
  simp only [List.length_cons, List.length_append, List.length_nil]
  omega

/-- An integer starts with a digit. -/
theorem toDigits_starts (n : Nat) : ∃ c cs, Nat.toDigits 10 n = c :: cs ∧ c.isDigit = true := by
  obtain ⟨c, cs, hc⟩ := List.exists_cons_of_ne_nil (Nat.toDigits_ne_nil (n := n) (b := 10))
  exact ⟨c, cs, hc, Nat.isDigit_of_mem_toDigits (b := 10) (n := n) (by decide) (by decide)
    (hc ▸ List.mem_cons_self ..)⟩

theorem toDigits_noName (n : Nat) (tail : List Char) :
    ∀ c ∈ (Nat.toDigits 10 n ++ tail).head?, isNameStart c = false := by
  obtain ⟨c, cs, hc, hdigit⟩ := toDigits_starts n
  rw [hc]
  rintro d ⟨⟩
  cases hname : isNameStart c with
  | false => rfl
  | true => rw [isDigit_eq_false_of_isNameStart hname] at hdigit; cases hdigit

/-- The characters that the text of a formula starts with. -/
def startsFormula (c : Char) : Bool := isNameStart c || c.isDigit || c == '('

theorem Formula.head {e : Expression} (h : Formula e) :
    ∃ c cs, e.text.toList = c :: cs ∧ startsFormula c = true := by
  induction h using Formula.induction with
  | name x span =>
    exact ⟨x.first, x.others, text_name x span, by simp [startsFormula, x.start]⟩
  | integer n span hn =>
    obtain ⟨c, cs, hc, hdigit⟩ := toDigits_starts n
    exact ⟨c, cs, (text_integer n span).trans hc, by simp [startsFormula, hdigit]⟩
  | pair s l r span =>
    exact ⟨'(', _, text_pair s l r span, by decide⟩
  | index l r span _ _ ihl =>
    obtain ⟨c, cs, hc, hstart⟩ := ihl
    refine ⟨c, cs ++ ('[' :: (r.text.toList ++ [']'])), ?_, hstart⟩
    rw [text_index, hc, List.cons_append]

section Start

variable {e : Expression} (h : Formula e) (tail : List Char)
include h

theorem Formula.starts : ∀ c ∈ (e.text.toList ++ tail).head?, startsFormula c = true := by
  obtain ⟨c, cs, hcs, hc⟩ := h.head
  rw [hcs]
  rintro d ⟨⟩
  exact hc

/-- A formula starts with no character of which a test holds, if that is none to start with. -/
theorem Formula.not_starts {w : List Char}
    (hw : w.head?.any (fun c => !startsFormula c) = true) : ¬ w <+: e.text.toList ++ tail :=
  not_starts_of_head hw fun c hc => by rw [h.starts tail c hc, Bool.not_true]

theorem Formula.solid : Solid (e.text.toList ++ tail) := by
  refine ⟨fun c hc => ?_, h.not_starts tail (by decide), h.not_starts tail (by decide)⟩
  have hstart := h.starts tail c hc
  simp only [startsFormula, Bool.or_eq_true, beq_iff_eq] at hstart
  rcases hstart with (hname | hdigit) | rfl
  · exact isBlank_eq_false_of_isNamePart (isNamePart_of_isNameStart hname)
  · refine isBlank_eq_false_of_isNamePart ?_
    simp [isNamePart, Char.isAlphanum, hdigit]
  · decide

theorem Formula.symbol {s : String}
    (hs : s.toList.head?.any (fun c => !startsFormula c) = true) :
    Fails (symbol s) (e.text.toList ++ tail) := Fails.symbol (h.solid tail) (h.not_starts tail hs)

end Start

/-! ### What ends a name or a number -/

/-- A name or a number before the text ends where the text starts. -/
structure Apart (cs : List Char) : Prop where
  part : ∀ c ∈ cs.head?, isNamePart c = false
  fraction : ∀ c rest, cs = '.' :: c :: rest → c.isDigit = false

theorem Apart.cons {c : Char} (hc : isNamePart c = false) (hpoint : c ≠ '.')
    (cs : List Char) : Apart (c :: cs) where
  part := by simpa using hc
  fraction := by
    rintro d rest heq
    exact absurd (List.cons.inj heq).1 hpoint

theorem Closed.apart {cs : List Char} (h : Closed cs) : Apart cs where
  part := forall_of_heads h (by decide)
  fraction := by
    rintro c rest rfl
    exact absurd (h '.' rfl) (by decide)

theorem Connective.apart (s : Connective) (cs : List Char) :
    Apart (s.blanks ++ s.before cs) := by
  cases s with
  | operator o => exact Apart.cons (by decide) (by decide) _
  | range inclusive =>
    cases inclusive <;> refine ⟨by rintro c ⟨⟩; decide, ?_⟩ <;>
      (rintro c rest ⟨⟩; decide)

theorem Apart.noDigit {cs : List Char} (h : Apart cs) : ∀ c ∈ cs.head?, c.isDigit = false := by
  intro c hc
  have := h.part c hc
  simp only [isNamePart, Char.isAlphanum, Bool.or_eq_false_iff] at this
  exact this.1.2

/-- No fraction follows. -/
theorem Apart.fraction_fails {cs : List Char} (h : Apart cs) :
    Fails (do exactly ['.']; many1 (satisfy Char.isDigit)) cs := by
  by_cases hpoint : ['.'] <+: cs
  · obtain ⟨rest, rfl⟩ := hpoint
    refine Fails.bind_after (Reads.exactly ['.'] rest) fun _ _ => ?_
    refine Fails.many1 (Fails.satisfy fun c hc => ?_)
    obtain ⟨rest, rfl⟩ := List.head?_eq_some_iff.mp hc
    exact h.fraction c rest rfl
  · exact (Fails.exactly hpoint).bind

/-! ### Integers -/

theorem toDigits_head_ne_zero {n : Nat} (hn : 0 < n) :
    ∀ c ∈ (Nat.toDigits 10 n).head?, c ≠ '0' := by
  induction n using Nat.strongRecOn with
  | _ n ih =>
    rw [Nat.toDigits_eq_if (by decide)]
    split
    · rename_i hlt
      have hdigits : ∀ m < 10, 0 < m → m.digitChar ≠ '0' := by decide
      rintro c ⟨⟩
      exact hdigits n hlt hn
    · rename_i hle
      have hpos : 0 < n / 10 := Nat.div_pos (Nat.le_of_not_lt hle) (by decide)
      obtain ⟨c, cs, hc, -⟩ := toDigits_starts (n / 10)
      have hne := ih (n / 10) (Nat.div_lt_self hn (by decide)) hpos
      rw [hc] at hne ⊢
      exact hne

/-- A zero is an alternative by itself. -/
theorem integerDigits_zero (cs : List Char) :
    Reads integerDigits ('0' :: cs) cs (· = ['0']) := by
  refine Reads.orElse_right (Fails.bind (Fails.satisfy ?_)) ?_
  · rintro c ⟨⟩
    decide
  · exact (Reads.exactly ['0'] cs).bind fun _ _ => Reads.pure rfl

theorem integerDigits_nonzero {c : Char} {ds cs : List Char}
    (hall : ∀ d ∈ c :: ds, d.isDigit = true) (hc : c ≠ '0')
    (hcs : ∀ d ∈ cs.head?, d.isDigit = false) :
    Reads integerDigits (c :: (ds ++ cs)) cs (· = c :: ds) := by
  obtain ⟨hdigit, hothers⟩ := List.forall_mem_cons.mp hall
  refine Reads.orElse_left ((Reads.satisfy (c := c) (by simp [hdigit, hc])).bind fun x hx => ?_)
  refine (Repeats.satisfy hothers hcs).many.bind fun xs hxs => Reads.pure ?_
  rw [hx, hxs]

section Integer

variable {ds cs rest : List Char} (hdigits : Reads integerDigits cs rest (· = ds))
  (hrest : Fails (do exactly ['.']; many1 (satisfy Char.isDigit)) rest)
include hdigits hrest

/-- An integer and no fraction. -/
theorem integer_alone : Reads
    (do
      let integer ← integerDigits
      let fraction ← optional (do exactly ['.']; many1 (satisfy Char.isDigit))
      pure (integer, fraction)) cs rest (· = (ds, none)) := by
  refine hdigits.bind fun ds' hds => (Reads.optional_none hrest).bind fun fraction hnone =>
    Reads.pure ?_
  rw [hds, hnone]

theorem number_of_integerDigits (hle : decimalValue ds ≤ greatestInteger) :
    Reads number cs rest (· = .integer (decimalValue ds)) := by
  refine (integer_alone hdigits hrest).accepted ?_
  rintro _ rfl
  exact ⟨.integer (decimalValue ds), if_pos hle, rfl⟩

theorem number_too_large (hlt : greatestInteger < decimalValue ds) : Fails number cs := by
  refine Fails.accepted_refused (integer_alone hdigits hrest) ?_
  rintro _ rfl
  exact ⟨_, if_neg (Nat.not_le.mpr hlt)⟩

end Integer

theorem number_toDigits {n : Nat} (hn : n < Nat.pow 2 63) {cs : List Char} (hcs : Apart cs) :
    Reads number (Nat.toDigits 10 n ++ cs) cs (· = .integer n) := by
  have hdigits : Reads integerDigits (Nat.toDigits 10 n ++ cs) cs (· = Nat.toDigits 10 n) := by
    by_cases hzero : n = 0
    · subst hzero
      exact integerDigits_zero cs
    · have hhead := toDigits_head_ne_zero (Nat.pos_of_ne_zero hzero)
      have hall : ∀ c ∈ Nat.toDigits 10 n, c.isDigit = true := fun c hc =>
        Nat.isDigit_of_mem_toDigits (by decide) (by decide) hc
      obtain ⟨c, ds, hc, -⟩ := toDigits_starts n
      rw [hc] at hhead hall ⊢
      exact integerDigits_nonzero hall (hhead c rfl) hcs.noDigit
  have hvalue : decimalValue (Nat.toDigits 10 n) = n :=
    Nat.ofDigitChars_toDigits (by decide) (by decide)
  have hle : decimalValue (Nat.toDigits 10 n) ≤ greatestInteger :=
    hvalue.symm ▸ Nat.le_sub_one_of_lt hn
  have hnumber := number_of_integerDigits hdigits hcs.fraction_fails hle
  rwa [hvalue] at hnumber

/-! ### What a formula is not -/

/-- What is left behind a type that a formula starts with: what stands behind the formula, or
an index. -/
inductive BehindType (mid : List Char) : List Char → Prop where
  | whole : BehindType mid mid
  | index {e : Expression} (h : Formula e) (tail : List Char) :
    BehindType mid ('[' :: (e.text.toList ++ tail))

theorem BehindType.symbol {mid rest : List Char} (h : BehindType mid rest) {s : String}
    (hs : s.toList.head?.any (· != '[') = true) (hmid : Fails (symbol s) mid) :
    Fails (Grammar.symbol s) rest := by
  cases h with
  | whole => exact hmid
  | index h tail =>
    exact Fails.symbol (Solid.cons (by decide) (by decide))
      (not_starts_of_head hs (by rintro c ⟨⟩; decide))

theorem BehindType.identifier {mid rest : List Char} (h : BehindType mid rest)
    (hmid : Fails identifier mid) : Fails Grammar.identifier rest := by
  cases h with
  | whole => exact hmid
  | index h tail =>
    exact Fails.identifier (Solid.cons (by decide) (by decide)) (by rintro c ⟨⟩; decide)

/-- A type before the text does not go on with it. -/
structure EndsType (g : Inner) (cs : List Char) : Prop where
  solid : Solid cs
  part : Fails (do exactly ['.']; identifier) cs
  generics : Fails (between "<" (separated g.classType (symbol ",") .refused) ">") cs
  dimension : Fails emptyBrackets cs

theorem Closed.endsType {cs : List Char} (h : Closed cs) (g : Inner) : EndsType g cs where
  solid := h.ending.solid
  part := Fails.bind (Fails.exactly
    (not_starts_of_head (f := (· == '.')) (by decide) (forall_of_heads h (by decide))))
  generics := (h.ending.symbol (by decide)).bind
  dimension := (h.ending.symbol (by decide)).bind

/-- The brackets of an index are not empty. -/
theorem Formula.endsType_index {e : Expression} (h : Formula e) (g : Inner) (tail : List Char) :
    EndsType g ('[' :: (e.text.toList ++ tail)) where
  solid := Solid.cons (by decide) (by decide)
  part := Fails.bind (Fails.exactly (by simp))
  generics := Fails.bind (Fails.symbol (Solid.cons (by decide) (by decide)) (by simp))
  dimension := Fails.bind_after
    (Reads.symbol_tight (s := "[") (Solid.cons (by decide) (by decide)) (h.solid tail))
    fun _ _ => h.symbol tail (by decide)

/-- Of a formula a type can be read up to its first index, if it starts with a name. -/
theorem Formula.classType_or {e : Expression} (h : Formula e) {g : Inner} {gap mid : List Char}
    (hgap : ∀ c ∈ gap, isBlank c = true) (hmid : EndsType g mid) (hapart : Apart (gap ++ mid)) :
    Fails (classType g) (e.text.toList ++ (gap ++ mid)) ∨
      ∃ rest, Reads (classType g) (e.text.toList ++ (gap ++ mid)) rest (fun _ => True) ∧
        BehindType mid rest := by
  induction h using Formula.induction generalizing gap mid with
  | name x span =>
    rw [text_name]
    refine .inr ⟨mid, ?_, .whole⟩
    refine (identifier_name x hgap hmid.solid hapart.part).bind fun _ _ => ?_
    exact (Reads.many_none hmid.part).bind fun _ _ =>
      (Reads.optional_none hmid.generics).bind fun _ _ => Reads.pure trivial
  | integer n span hn =>
    refine .inl (Fails.identifier ((Formula.integer n hn span).solid _) ?_).bind
    rw [text_integer]
    exact toDigits_noName n _
  | pair s l r span hl hr =>
    refine .inl (Fails.identifier ((Formula.pair s span hl hr).solid _) ?_).bind
    rw [text_pair]
    rintro c ⟨⟩
    decide
  | index l r span hl hr ihl =>
    -- the type ends where that of the indexed object does, in front of this index or an inner one
    have hnone : ∀ c ∈ ([] : List Char), isBlank c = true := List.forall_mem_nil _
    rw [text_index_append]
    rcases ihl hnone (hr.endsType_index g (']' :: (gap ++ mid)))
      (Apart.cons (by decide) (by decide) _) with hfail | ⟨rest, hreads, hrest⟩
    · exact .inl hfail
    · refine .inr ⟨rest, hreads, ?_⟩
      cases hrest with
      | whole => exact .index hr _
      | index h tail => exact .index h tail

theorem Formula.typeName_or {e : Expression} (h : Formula e) {g : Inner} {gap mid : List Char}
    (hgap : ∀ c ∈ gap, isBlank c = true) (hmid : EndsType g mid) (hapart : Apart (gap ++ mid)) :
    Fails (typeName g) (e.text.toList ++ (gap ++ mid)) ∨
      ∃ rest, Reads (typeName g) (e.text.toList ++ (gap ++ mid)) rest (fun _ => True) ∧
        BehindType mid rest := by
  rcases h.classType_or hgap hmid hapart with hfail | ⟨rest, hreads, hrest⟩
  · exact .inl hfail.bind
  · have hnone : Fails emptyBrackets rest := by
      cases hrest with
      | whole => exact hmid.dimension
      | index h tail => exact (h.endsType_index g tail).dimension
    exact .inr ⟨rest, hreads.bind fun _ _ => (Reads.many_none hnone).bind fun _ _ =>
      Reads.pure trivial, hrest⟩

/-- The operators that start with `<` leave nothing that a type starts with. -/
theorem behindSign_less {o : Operator} (ho : "<".toList.isPrefixOf o.text.toList = true)
    (gap : Gap) (cs : List Char) :
    behindSign "<" o gap cs = cs ∨ ∀ c ∈ (behindSign "<" o gap cs).head?, c ∈ ['=', '<'] := by
  have hops := o.all (f := fun _ t => !"<".toList.isPrefixOf t.toList ||
    (t.toList.drop 1).head?.all ['=', '<'].contains) (by decide)
  rw [ho, Bool.not_true, Bool.false_or] at hops
  rw [behindSign]
  cases hdrop : o.text.toList.drop "<".length with
  | nil => exact .inl rfl
  | cons c w =>
    refine .inr ?_
    rintro d ⟨⟩
    rw [show o.text.toList.drop 1 = c :: w from hdrop] at hops
    exact List.contains_iff_mem.mp hops

/-- The types of a list that a formula starts, and no closing sign behind them. -/
theorem Formula.typeList {e : Expression} (h : Formula e) (n : Nat) {tail : List Char}
    (htail : Closed tail) :
    ∃ rest, Reads (separated (level n).classType (Grammar.symbol ",") .refused)
      (e.text.toList ++ tail) rest (fun _ => True) ∧ Fails (Grammar.symbol ">") rest := by
  have htype : Fails (level n).classType (e.text.toList ++ tail) ∨
      ∃ rest, Reads (level n).classType (e.text.toList ++ tail) rest (fun _ => True) ∧
        BehindType tail rest := by
    cases n with
    | zero => exact .inl fun pos => ⟨_, rfl⟩
    | succ n =>
      exact h.classType_or (List.forall_mem_nil _) (htail.endsType (level n)) htail.apart
  rcases htype with hfail | ⟨rest, hreads, hrest⟩
  · exact ⟨_, (Reads.separated_none hfail).mono fun _ _ => trivial, h.symbol tail (by decide)⟩
  · have hcomma := hrest.symbol (s := ",") (by decide) (htail.ending.symbol (by decide))
    have hclose := hrest.symbol (s := ">") (by decide) (htail.ending.symbol (by decide))
    exact ⟨rest, (Reads.separated_one hreads hcomma).mono fun _ _ => trivial, hclose⟩

/-- Behind the start of a longer operator there are no types. -/
theorem typeList_behindSign {cs : List Char} (hheads : ∀ c ∈ cs.head?, c ∈ ['=', '<']) (n : Nat) :
    Reads (separated (level n).classType (symbol ",") .refused) cs cs (fun _ => True) ∧
      Fails (symbol ">") cs := by
  have hsolid := solid_of_heads hheads (by decide)
  have hname := Fails.identifier hsolid (forall_of_heads hheads (by decide))
  have htype : Fails (level n).classType cs := by
    cases n with
    | zero => exact fun pos => ⟨_, rfl⟩
    | succ n => exact hname.bind
  exact ⟨(Reads.separated_none htype).mono fun _ _ => trivial, Fails.symbol hsolid
    (not_starts_of_head (f := (· == '>')) (by decide) (forall_of_heads hheads (by decide)))⟩

/-- What looks like generic arguments between two operands is not closed. -/
theorem Formula.generics {e : Expression} (h : Formula e) (n : Nat) (s : Connective)
    {tail : List Char} (htail : Closed tail) :
    Fails (between "<" (separated (level n).classType (Grammar.symbol ",") .refused) ">")
      (s.before (e.text.toList ++ tail)) := by
  cases s with
  | range inclusive => exact ((Connective.ending_before_range inclusive _).symbol (by decide)).bind
  | operator o =>
    cases ho : "<".toList.isPrefixOf o.text.toList with
    | false => exact (symbol_operatorText_of_not_starts (by decide) o oneBlank _ ho).bind
    | true =>
      have hless := symbol_behindSign (s := "<") (by decide) o oneBlank (h.solid tail) ho
      refine Fails.bind_after hless fun _ _ => ?_
      rcases behindSign_less ho oneBlank (e.text.toList ++ tail) with heq | hheads
      · obtain ⟨rest, hreads, hclose⟩ := h.typeList n htail
        rw [heq]
        exact Fails.bind_after hreads fun _ _ => hclose.bind
      · obtain ⟨hreads, hclose⟩ := typeList_behindSign hheads n
        exact Fails.bind_after hreads fun _ _ => hclose.bind

theorem Formula.endsType_before {e : Expression} (h : Formula e) (n : Nat) (s : Connective)
    {tail : List Char} (htail : Closed tail) :
    EndsType (level n) (s.before (e.text.toList ++ tail)) where
  solid := s.solid_before _
  part := by
    cases s with
    | range inclusive =>
      -- behind the first point there is the second one
      obtain ⟨rest, hrest⟩ : ∃ rest, (Connective.range inclusive).before (e.text.toList ++ tail) =
          ['.'] ++ '.' :: rest := by
        cases inclusive <;> exact ⟨_, rfl⟩
      rw [hrest]
      exact Fails.bind_after (Reads.exactly ['.'] _) fun _ _ =>
        Fails.identifier (Solid.cons (by decide) (by decide)) (by rintro c ⟨⟩; decide)
    | operator o =>
      have hpoint := o.all (f := fun _ t => !(['.'].isPrefixOf t.toList)) (by decide)
      rw [Bool.not_eq_true', ← Bool.not_eq_true, List.isPrefixOf_iff_prefix] at hpoint
      exact Fails.bind (Fails.exactly fun h => hpoint (starts_of_append_gap (by decide) h))
  generics := h.generics n s htail
  dimension := (s.symbol_before (by decide) (by decide) _).bind

end Grammar
end ScriptOutline
