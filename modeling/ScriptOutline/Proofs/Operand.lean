/-
ScriptOutline/Proofs/Operand.lean

The operands of a chain, and what the parser makes of the text on either side of them.

A name is read as an operand, whatever the alternatives before it (`Unmarked`, or `Unopened` for
the alternatives before the brackets), and nothing that could extend it is found behind it: the
suffixes, the casts and the keywords that may follow an operand are all foreign to the operators
(`isForeign`).  Where the rest of a torn operator stands, no operand is read at all (`Barren`).

Facts about the operators are tests of their table (`allOperators`), each one settled by
running it.
-/
import ScriptOutline.Grammar.Declaration
import ScriptOutline.Proofs.Climbing
import ScriptOutline.Proofs.Reading

namespace ScriptOutline.Grammar

open ScriptOutline.Grammar.Parser

/-! ### Operators as they are written -/

/-- A test of all operators of the table, each with its tier. -/
def allOperators (f : Nat → String → Bool) : Bool :=
  operatorGroups.zipIdx.all fun group => group.1.all (f group.2)

theorem Operator.all {f : Nat → String → Bool} (h : allOperators f = true) (o : Operator) :
    f o.tier o.text = true := by
  have hlt : o.tier < operatorGroups.length := Nat.lt_succ_of_le o.tier_le
  have hgroup : (operatorGroups.getD o.tier [], o.tier) ∈ operatorGroups.zipIdx := by
    rw [List.mk_mem_zipIdx_iff_getElem?, List.getD_eq_getElem?_getD,
      List.getElem?_eq_getElem hlt]
    rfl
  exact List.all_eq_true.mp (List.all_eq_true.mp h _ hgroup) o.text o.grouped

/-- A text without blanks that stands before a blank stands before it. -/
theorem starts_of_append_gap {w cs : List Char} {gap : Gap} {rest : List Char}
    (hw : w.any isBlank = false) (h : w <+: cs ++ (gap.chars ++ rest)) : w <+: cs := by
  induction w generalizing cs with
  | nil => exact List.nil_prefix
  | cons c w ih =>
    obtain ⟨hc, hw⟩ := Bool.or_eq_false_iff.mp hw
    cases cs with
    | nil =>
      -- the rest of `w` would start with the first blank of the gap
      obtain ⟨rfl, -⟩ := List.cons_prefix_cons.mp h
      rw [gap.blank gap.first (List.mem_cons_self ..)] at hc
      cases hc
    | cons d cs =>
      obtain ⟨rfl, htail⟩ := List.cons_prefix_cons.mp h
      exact List.cons_prefix_cons.mpr ⟨rfl, ih hw htail⟩

/-- An operator with the blanks behind it, before a text. -/
def operatorText (o : Operator) (gap : Gap) (cs : List Char) : List Char :=
  o.text.toList ++ (gap.chars ++ cs)

theorem solid_operatorText (o : Operator) (gap : Gap) (cs : List Char) :
    Solid (operatorText o gap cs) := by
  have hhead := o.all (f := fun _ s => s.toList.head?.any fun c => !isBlank c) (by decide)
  have hline := o.all (f := fun _ s => !(['/', '/'].isPrefixOf s.toList)) (by decide)
  have hblock := o.all (f := fun _ s => !(['/', '*'].isPrefixOf s.toList)) (by decide)
  obtain ⟨c, hc, hblank⟩ := (Option.any_eq_true _ _).mp hhead
  rw [Bool.not_eq_true', ← Bool.not_eq_true, List.isPrefixOf_iff_prefix] at hline hblock
  refine ⟨?_, fun h => hline (starts_of_append_gap (by decide) h),
    fun h => hblock (starts_of_append_gap (by decide) h)⟩
  intro d hd
  rw [operatorText, List.head?_append, hc] at hd
  cases hd
  exact (Bool.not_eq_true' _).mp hblank

theorem solid_linksText (links : List Link) : Solid (linksText links) := by
  cases links with
  | nil => exact Solid.nil
  | cons l rest => exact solid_operatorText l.operator l.after _

/-! ### Names as they are written -/

theorem isNamePart_eq_false_at_gap (gap : Gap) (rest : List Char) :
    ∀ d ∈ (gap.chars ++ rest).head?, isNamePart d = false := by
  rintro d hd
  cases hd
  exact isNamePart_eq_false_of_isBlank (gap.blank gap.first (List.mem_cons_self ..))

/-- Behind a name there is an end, or a blank. -/
theorem isNamePart_eq_false_after_name (links : List Link) :
    ∀ d ∈ (leadingBlanks links ++ linksText links).head?, isNamePart d = false := by
  cases links with
  | nil => simp [leadingBlanks, linksText]
  | cons l rest => exact isNamePart_eq_false_at_gap l.before _

section Name

variable (x : Name) {gap cs : List Char}

theorem solid_name (cs : List Char) : Solid (x.chars ++ cs) := Solid.word x.start

theorem word_name (hend : ∀ d ∈ cs.head?, isNamePart d = false) :
    Reads word (x.chars ++ cs) cs (· = x.text) := Reads.word x.start x.parts hend

theorem identifier_name (hgap : ∀ c ∈ gap, isBlank c = true) (hcs : Solid cs)
    (hend : ∀ d ∈ (gap ++ cs).head?, isNamePart d = false) :
    Reads identifier (x.chars ++ (gap ++ cs)) cs (· = x.text) :=
  Reads.identifier (solid_name x _) (word_name x hend) x.free hgap hcs

theorem keyword_name {w : String} (hw : w ∈ keywords)
    (hend : ∀ d ∈ cs.head?, isNamePart d = false) : Fails (keyword w) (x.chars ++ cs) := by
  refine Fails.keyword_other (solid_name x cs) (word_name x hend) ?_
  rintro rfl
  exact x.free hw

end Name

theorem solid_chainText (x : Name) (links : List Link) : Solid (chainText x links) := by
  rw [chainText_eq]
  exact solid_name x _

theorem identifier_chainText (x : Name) (links : List Link) :
    Reads identifier (chainText x links) (linksText links) (· = x.text) := by
  rw [chainText_eq]
  exact identifier_name x isBlank_of_mem_leadingBlanks (solid_linksText links)
    (isNamePart_eq_false_after_name links)

/-! ### Operands -/

/-- The head of the text fails a test that the head of the word passes. -/
theorem not_starts_of_head {w cs : List Char} {f : Char → Bool} (hw : w.head?.any f = true)
    (hcs : ∀ d ∈ cs.head?, f d = false) : ¬ w <+: cs := by
  obtain ⟨c, hc, hf⟩ := (Option.any_eq_true _ _).mp hw
  rintro ⟨rest, rfl⟩
  rw [List.head?_append, hc] at hcs
  rw [hcs c rfl] at hf
  cases hf

/-- What the operands start with that are no words. -/
def opens (c : Char) : Bool := c.isDigit || ['\'', '"', '~', '\x7b', '[', '('].contains c

theorem number_fails_of_noDigit {cs : List Char} (h : ∀ c ∈ cs.head?, c.isDigit = false) :
    Fails number cs := by
  refine Fails.accepted (Fails.bind (Fails.orElse (Fails.bind ?_) (Fails.bind ?_)))
  · exact Fails.satisfy fun c hc => by rw [h c hc, Bool.false_and]
  · exact Fails.exactly (not_starts_of_head (by decide) h)

/-- A literal is a number, or starts with one of three marks, or is one of three words. -/
theorem literal_fails_of_number {cs : List Char} (hsolid : Solid cs) (hnumber : Fails number cs)
    (hmarks : ∀ w ∈ [['\''], ['"'], ['~', '/']], ¬ w <+: cs)
    (hwords : ∀ w ∈ ["true", "false", "null"], Fails (keyword w) cs) (g : Inner) :
    Fails (literal g) cs := by
  refine Fails.firstOf (Fails.bind (Fails.spanned (Fails.token hsolid hnumber))) ?_
  simp only [List.forall_mem_cons, List.not_mem_nil, false_implies, implies_true, and_true]
  refine ⟨?_, ?_, ?_, ?_⟩
  · exact Fails.bind (Fails.spanned (Fails.map (Fails.token hsolid
      (Fails.bind (Fails.exactly (hmarks ['\''] (by decide)))))))
  · exact Fails.token hsolid (Fails.bind (Fails.spanned
      (Fails.bind (Fails.exactly (hmarks ['"'] (by decide))))))
  · exact Fails.token hsolid (Fails.bind (Fails.spanned
      (Fails.bind (Fails.exactly (hmarks ['~', '/'] (by decide))))))
  · refine Fails.bind (Fails.spanned (Fails.orElse (Fails.orElse ?_ ?_) ?_))
    · exact (hwords "true" (by decide)).bind
    · exact (hwords "false" (by decide)).bind
    · exact (hwords "null" (by decide)).bind

section Literal

variable {cs : List Char} (hhead : ∀ c ∈ cs.head?, (opens c && c != '(') = false)
include hhead

theorem number_fails : Fails number cs := by
  refine number_fails_of_noDigit fun c hc => ?_
  have hopen := hhead c hc
  rw [← Bool.not_eq_true]
  intro hdigit
  rw [opens, hdigit, Bool.true_or, Bool.true_and, bne_eq_false_iff_eq] at hopen
  rw [hopen] at hdigit
  cases hdigit

/-- A literal that does not start with a mark is one of three words. -/
theorem literal_fails (hsolid : Solid cs)
    (hwords : ∀ w ∈ ["true", "false", "null"], Fails (keyword w) cs) (g : Inner) :
    Fails (literal g) cs := by
  refine literal_fails_of_number hsolid (number_fails hhead) ?_ hwords g
  simp only [List.forall_mem_cons, List.not_mem_nil, false_implies, implies_true, and_true]
  exact ⟨not_starts_of_head (by decide) hhead, not_starts_of_head (by decide) hhead,
    not_starts_of_head (by decide) hhead⟩

end Literal

/-- The text starts with no literal, no list, no closure and no keyword. -/
structure Unopened (cs : List Char) : Prop where
  solid : Solid cs
  head : ∀ c ∈ cs.head?, (opens c && c != '(') = false
  keyword : ∀ w ∈ keywords, Fails (keyword w) cs

namespace Unopened

variable {cs : List Char} (h : Unopened cs) (g : Inner)
include h

theorem symbol {s : String} (hs : s.toList.head?.any (fun c => opens c && c != '(') = true) :
    Fails (Grammar.symbol s) cs := Fails.symbol h.solid (not_starts_of_head hs h.head)

theorem literal : Fails (Grammar.literal g) cs := by
  have hkeywords : ∀ w ∈ ["true", "false", "null"], w ∈ keywords := by decide
  exact literal_fails h.head h.solid (fun w hw => h.keyword w (hkeywords w hw)) g

theorem specialWord : Fails Grammar.specialWord cs :=
  Fails.orElse (h.keyword "this" (by decide)).bind (h.keyword "super" (by decide)).bind

/-- Only round brackets or a name could be read. -/
theorem beforeBrackets :
    ∀ r ∈ [sizedArray g, initializedArray g, newObject g, specialCall g, specialVariable,
      closure g, emptyMap, map g, list g], Fails r cs := by
  have hnew : Fails (Grammar.keyword "new") cs := h.keyword "new" (by decide)
  have hbracket : Fails (Grammar.symbol "[") cs := h.symbol (by decide)
  simp only [List.forall_mem_cons, List.not_mem_nil, false_implies, implies_true, and_true]
  refine ⟨?_, ?_, ?_, ?_, ?_, ?_, ?_, ?_, ?_⟩
  · exact hnew.bind.spanned.bind
  · exact hnew.bind.spanned.bind
  · exact hnew.bind.spanned.bind
  · exact h.specialWord.bind.spanned.bind
  · exact h.specialWord.spanned.bind
  · exact (h.symbol (s := "\x7b") (by decide)).bind.spanned.bind
  · exact hbracket.bind.spanned.bind
  · exact hbracket.bind.spanned.bind
  · exact hbracket.bind.spanned.bind

end Unopened

/-- The text starts with no literal, no bracket and no keyword. -/
structure Unmarked (cs : List Char) : Prop where
  solid : Solid cs
  head : ∀ c ∈ cs.head?, opens c = false
  keyword : ∀ w ∈ keywords, Fails (keyword w) cs

namespace Unmarked

variable {cs : List Char} (h : Unmarked cs) (g : Inner)
include h

theorem unopened : Unopened cs where
  solid := h.solid
  head c hc := by rw [h.head c hc, Bool.false_and]
  keyword := h.keyword

theorem bracket : Fails (Grammar.symbol "(") cs :=
  Fails.symbol h.solid (not_starts_of_head (by decide) h.head)

/-- Only a name could be read. -/
theorem beforeName :
    ∀ r ∈ [sizedArray g, initializedArray g, newObject g, specialCall g, specialVariable,
      closure g, emptyMap, map g, list g, between "(" g.expression ")"], Fails r cs :=
  List.forall_mem_append.mpr
    ⟨h.unopened.beforeBrackets g, List.forall_mem_singleton.mpr h.bracket.bind⟩

theorem cast : Fails (Grammar.cast g) cs := (Fails.accepted h.bracket.bind).bind.spanned.bind

/-- Without a name no operand could be read either. -/
theorem suffixed (hname : ∀ c ∈ cs.head?, isNameStart c = false) :
    Fails (Grammar.suffixed g) cs := by
  have hvariable : Fails variableName cs := (Fails.identifier h.solid hname).spanned.bind
  have hall := List.forall_mem_append.mpr
    ⟨h.beforeName g, List.forall_mem_singleton.mpr hvariable⟩
  exact Fails.bind (Fails.firstOf (h.unopened.literal g) hall)

theorem unary (hname : ∀ c ∈ cs.head?, isNameStart c = false)
    (hsigns : ∀ s ∈ ["++", "--", "!", "-", "+", "~"], Fails (sign s) cs) :
    Fails (Grammar.unary g) cs := by
  obtain ⟨hfirst, hothers⟩ := List.forall_mem_cons.mp hsigns
  refine Fails.orElse (Fails.orElse (h.cast g) (h.suffixed g hname)) ?_
  exact (Fails.bind (Fails.firstOf hfirst (List.forall_mem_map.mpr hothers))).spanned.bind

end Unmarked

/-- An expression starts with an operand. -/
theorem expression_of_unary {g : Inner} {cs : List Char} (h : Fails (unary g) cs) :
    Fails (expression g) cs := by
  have hcoerced : Fails (coerced g) cs := h.bind
  have hshift : Fails (shift g) cs := hcoerced.bind.bind.bind.bind
  have hrelational : Fails (relational g) cs := hshift.bind.bind
  have hlogical : Fails (logicalOr g) cs := hrelational.bind.bind.bind.bind.bind.bind
  exact hlogical.bind.bind

theorem unmarked_name (x : Name) {cs : List Char}
    (hend : ∀ d ∈ cs.head?, isNamePart d = false) : Unmarked (x.chars ++ cs) where
  solid := solid_name x cs
  head := by
    rintro c hc
    cases hc
    -- names start neither with digits nor with one of the marks
    refine Bool.or_eq_false_iff.mpr ⟨isDigit_eq_false_of_isNameStart x.start, ?_⟩
    rw [← Bool.not_eq_true, List.contains_iff_mem]
    intro hmem
    have hstart := x.start
    simp only [List.mem_cons, List.not_mem_nil, or_false] at hmem
    rcases hmem with h | h | h | h | h | h <;> rw [h] at hstart <;> cases hstart
  keyword := fun _ hw => keyword_name x hw hend

theorem unmarked_chainText (x : Name) (links : List Link) : Unmarked (chainText x links) := by
  rw [chainText_eq]
  exact unmarked_name x (isNamePart_eq_false_after_name links)

/-! ### Where no operand starts -/

/-- What holds of none of some characters does not hold of the first one. -/
theorem forall_of_heads {cs heads : List Char} {f : Char → Bool}
    (h : ∀ c ∈ cs.head?, c ∈ heads) (hf : heads.any f = false) :
    ∀ c ∈ cs.head?, f c = false := fun c hc => by
  rw [← Bool.not_eq_true]
  exact List.any_eq_false.mp hf c (h c hc)

theorem solid_of_heads {cs heads : List Char} (h : ∀ c ∈ cs.head?, c ∈ heads)
    (hheads : heads.any (fun c => isBlank c || c == '/') = false) : Solid cs := by
  have hhead := forall_of_heads h hheads
  cases cs with
  | nil => exact Solid.nil
  | cons c cs =>
    obtain ⟨hblank, hslash⟩ := Bool.or_eq_false_iff.mp (hhead c rfl)
    exact Solid.cons hblank (ne_of_beq_false hslash)

/-- The first characters of what is left of an operator after a sign of a tighter tier. -/
def leftoverHeads : List Char := ['=', '*', '>', '&', '|']

/-- The text is at its end, or starts with the rest of an operator. -/
def Barren (cs : List Char) : Prop := ∀ c ∈ cs.head?, c ∈ leftoverHeads

namespace Barren

variable {cs : List Char} (h : Barren cs) (g : Inner)
include h

theorem head {f : Char → Bool} (hf : leftoverHeads.any f = false) :
    ∀ c ∈ cs.head?, f c = false := forall_of_heads h hf

theorem solid : Solid cs := solid_of_heads h (by decide)

theorem noName : ∀ c ∈ cs.head?, isNameStart c = false := h.head (by decide)

theorem unmarked : Unmarked cs where
  solid := h.solid
  head := h.head (by decide)
  keyword := fun _ _ => Fails.keyword h.solid h.noName

theorem sign {s : String} (hs : s.toList.head?.any (fun c => !leftoverHeads.contains c) = true) :
    Fails (Grammar.sign s) cs :=
  (Fails.symbol h.solid (not_starts_of_head hs (h.head (by decide)))).bind

/-- No operand can be read. -/
theorem unary : Fails (Grammar.unary g) cs := by
  have hsigns : ∀ s ∈ ["++", "--", "!", "-", "+", "~"],
      s.toList.head?.any (fun c => !leftoverHeads.contains c) = true := by decide
  exact h.unmarked.unary g h.noName fun s hs => h.sign (hsigns s hs)

theorem coerced : Fails (Grammar.coerced g) cs := (h.unary g).bind

end Barren

/-- The brackets that end something. -/
def closingBrackets : List Char := [')', ']', '\x7d']

/-- The text starts with a closing bracket, or it is empty. -/
def Closing (cs : List Char) : Prop := ∀ c ∈ cs.head?, c ∈ closingBrackets

namespace Closing

theorem cons {c : Char} (hc : c ∈ closingBrackets) (cs : List Char) : Closing (c :: cs) := by
  rintro d ⟨⟩
  exact hc

variable {cs : List Char} (h : Closing cs) (g : Inner)
include h

theorem solid : Solid cs := solid_of_heads h (by decide)

theorem noName : ∀ c ∈ cs.head?, isNameStart c = false := forall_of_heads h (by decide)

theorem unmarked : Unmarked cs where
  solid := h.solid
  head := forall_of_heads h (by decide)
  keyword _ _ := Fails.keyword h.solid h.noName

theorem symbol {s : String}
    (hs : s.toList.head?.any (fun c => !closingBrackets.contains c) = true) :
    Fails (Grammar.symbol s) cs :=
  Fails.symbol h.solid (not_starts_of_head hs (forall_of_heads h (by decide)))

/-- Nothing can be read that starts with an operand. -/
theorem expression : Fails (Grammar.expression g) cs := by
  have hsigns : ∀ s ∈ ["++", "--", "!", "-", "+", "~"],
      s.toList.head?.any (fun c => !closingBrackets.contains c) = true := by decide
  exact expression_of_unary
    (h.unmarked.unary g h.noName fun s hs => (h.symbol (hsigns s hs)).bind)

theorem inner (n : Nat) : Fails (level n).expression cs := by
  cases n with
  | zero => exact fun pos => ⟨_, rfl⟩
  | succ n => exact h.expression (level n)

end Closing

/-! ### Behind an operand -/

/-- A sign of the grammar: it is not empty and has no blanks. -/
def isSign (s : String) : Bool := !s.toList.isEmpty && !s.toList.any isBlank

theorem isSign_iff {s : String} :
    isSign s = true ↔ s.toList ≠ [] ∧ s.toList.any isBlank = false := by
  simp [isSign]

/-- A sign that no operator starts with. -/
def isForeign (s : String) : Bool :=
  isSign s && allOperators fun _ o => !s.toList.isPrefixOf o.toList

theorem symbol_operatorText_of_not_starts {s : String} (hs : isSign s = true) (o : Operator)
    (gap : Gap) (cs : List Char) (hs' : s.toList.isPrefixOf o.text.toList = false) :
    Fails (symbol s) (operatorText o gap cs) := by
  refine Fails.symbol (solid_operatorText o gap cs) fun h => ?_
  have hstarts := starts_of_append_gap (isSign_iff.mp hs).2 h
  rw [List.isPrefixOf_iff_prefix.mpr hstarts] at hs'
  cases hs'

theorem symbol_operatorText {s : String} (hs : isForeign s = true) (o : Operator) (gap : Gap)
    (cs : List Char) : Fails (symbol s) (operatorText o gap cs) := by
  obtain ⟨hsign, hops⟩ := Bool.and_eq_true_iff.mp hs
  exact symbol_operatorText_of_not_starts hsign o gap cs ((Bool.not_eq_true' _).mp (o.all hops))

theorem symbol_linksText {s : String} (hs : isForeign s = true) (links : List Link) :
    Fails (symbol s) (linksText links) := by
  cases links with
  | nil =>
    obtain ⟨hne, -⟩ := isSign_iff.mp (Bool.and_eq_true_iff.mp hs).1
    exact Fails.symbol Solid.nil fun hstarts => hne (List.prefix_nil.mp hstarts)
  | cons l rest => exact symbol_operatorText hs l.operator l.after _

/-- The only operator that is a word is `in`. -/
theorem noName_operatorText {o : Operator} (gap : Gap) (cs : List Char) (ho : o.text ≠ "in") :
    ∀ c ∈ (operatorText o gap cs).head?, isNameStart c = false := by
  have hops := o.all
    (f := fun _ s => s == "in" || s.toList.head?.any fun d => !isNameStart d) (by decide)
  rw [beq_false_of_ne ho, Bool.false_or] at hops
  obtain ⟨d, hd, hstart⟩ := (Option.any_eq_true _ _).mp hops
  intro c hc
  rw [operatorText, List.head?_append, hd] at hc
  cases hc
  exact (Bool.not_eq_true' _).mp hstart

theorem word_operatorText {o : Operator} (gap : Gap) (cs : List Char) (ho : o.text = "in") :
    Reads word (operatorText o gap cs) (gap.chars ++ cs) (· = "in") := by
  rw [operatorText, ho]
  exact Reads.word (c := 'i') (w := ['n']) (by decide) (List.all_eq_true.mp (by decide))
    (isNamePart_eq_false_at_gap gap _)

theorem keyword_operatorText {w : String} (hw : w ≠ "in") (o : Operator) (gap : Gap)
    (cs : List Char) : Fails (keyword w) (operatorText o gap cs) := by
  by_cases ho : o.text = "in"
  · exact Fails.keyword_other (solid_operatorText o gap cs) (word_operatorText gap cs ho)
      (Ne.symm hw)
  · exact Fails.keyword (solid_operatorText o gap cs) (noName_operatorText gap cs ho)

theorem keyword_linksText {w : String} (hw : w ≠ "in") (links : List Link) :
    Fails (keyword w) (linksText links) := by
  cases links with
  | nil => exact Fails.keyword Solid.nil (by simp [linksText])
  | cons l rest => exact keyword_operatorText hw l.operator l.after _

/-- The signs that suffixes start with. -/
def suffixSigns : List String := [".&", ".@", ".", "?.", "*.", "(", "[", "++", "--"]

theorem suffix_of_signs (g : Inner) {cs : List Char}
    (hsigns : ∀ s ∈ suffixSigns, Fails (symbol s) cs) : Fails (suffix g) cs := by
  refine Fails.firstOf (hsigns ".&" (by decide)).bind ?_
  simp only [List.forall_mem_cons, List.not_mem_nil, false_implies, implies_true, and_true]
  refine ⟨?_, ?_, ?_, ?_, ?_, ?_⟩
  · exact (hsigns ".@" (by decide)).bind
  · exact (hsigns "." (by decide)).bind.spanned.bind
  · refine (Fails.firstOf (hsigns "?." (by decide)).bind ?_).bind
    simp only [List.forall_mem_cons, List.not_mem_nil, false_implies, implies_true, and_true]
    exact ⟨(hsigns "*." (by decide)).bind, (hsigns "." (by decide)).bind⟩
  · exact (hsigns "(" (by decide)).bind.bind.spanned.bind.bind
  · exact (hsigns "[" (by decide)).bind.spanned.bind
  · exact (Fails.orElse (hsigns "++" (by decide)).bind
      (hsigns "--" (by decide)).bind).spanned.bind

/-- No operator starts with one of the signs of suffixes. -/
theorem isForeign_of_mem_suffixSigns : ∀ s ∈ suffixSigns, isForeign s = true := by decide

theorem suffix_linksText (g : Inner) (links : List Link) :
    Fails (suffix g) (linksText links) :=
  suffix_of_signs g fun s hs => symbol_linksText (isForeign_of_mem_suffixSigns s hs) links

theorem suffixed_chainText (g : Inner) (x : Name) (links : List Link) :
    Reads (suffixed g) (chainText x links) (linksText links) (Tree.operand x.text).Spells := by
  have hunmarked := unmarked_chainText x links
  have hname : Reads variableName (chainText x links) (linksText links)
      (Tree.operand x.text).Spells := by
    refine (identifier_chainText x links).spanned.bind fun y hy => Reads.pure ?_
    exact ⟨y.2, by rw [hy]⟩
  have hprimary : Reads (primary g) (chainText x links) (linksText links)
      (Tree.operand x.text).Spells :=
    Reads.firstOf_tail (hunmarked.unopened.literal g) (hunmarked.beforeName g) hname []
  refine hprimary.bind fun e he => ?_
  refine (Reads.many_none (suffix_linksText g links)).bind fun suffixes hsuffixes =>
    Reads.pure ?_
  rw [hsuffixes]
  exact he

theorem coerced_chainText (g : Inner) (x : Name) (links : List Link) :
    Reads (coerced g) (chainText x links) (linksText links) (Tree.operand x.text).Spells := by
  have hunary : Reads (unary g) (chainText x links) (linksText links)
      (Tree.operand x.text).Spells :=
    ((suffixed_chainText g x links).orElse_right
      ((unmarked_chainText x links).cast g)).orElse_left
  have hnoCast := keyword_linksText (w := "as") (by decide) links
  refine hunary.bind fun e he => (Reads.many_none hnoCast.bind.spanned.bind).bind fun ts hts =>
    Reads.pure ?_
  rw [hts]
  exact he

end ScriptOutline.Grammar
