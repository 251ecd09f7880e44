/-
ScriptOutline/Proofs/TextLiteral.lean

Text literals are read as the text that was written.

A text is written between quotes, with a backslash before every character that would mean something
else there (`escaped`).  Both kinds of literal are repetitions, and what a round makes of one
character does not depend on what stands behind it; so the rounds read a text character by
character, whatever follows (`Repeats.escaped`).  In double quotes a value `${name}` takes one round
too.  The fragments are then cut at the values: the characters before, between and behind them are
the constants of the interpolation, also where there are none.

The main result is `parse_textLiteral`.
-/
import Mathlib.Data.List.Forall2
import ScriptOutline.Proofs.Literal
import ScriptOutline.Proofs.MemberSign

namespace ScriptOutline.Grammar

open ScriptOutline.Grammar.Parser

/-! ### Texts as they are written -/

/-- A character of a text, with a backslash before it if it is one of the marks. -/
def escapedChar (marks : List Char) (c : Char) : List Char :=
  if c ∈ marks then ['\\', c] else [c]

/-- A text with a backslash before each of the marks in it. -/
def escaped (marks : List Char) (text : String) : List Char :=
  text.toList.flatMap (escapedChar marks)

/-- The marks of a text in single quotes. -/
def quotedMarks : List Char := ['\'', '\\']

/-- The marks of a text in double quotes. -/
def doubleQuotedMarks : List Char := ['"', '\\', '$']

/-- A text in single quotes. -/
def quotedText (text : String) : List Char := '\'' :: (escaped quotedMarks text ++ ['\''])

/-- Values inside a text in double quotes, `${name}`, each with the text behind it. -/
def valuesText (values : List (Name × String)) : List Char :=
  values.flatMap fun (name, text) =>
    ['$', '\x7b'] ++ name.chars ++ ['\x7d'] ++ escaped doubleQuotedMarks text

/-- A text in double quotes, up to its first value and from there on. -/
def doubleQuotedText (text : String) (values : List (Name × String)) : List Char :=
  '"' :: (escaped doubleQuotedMarks text ++ (valuesText values ++ ['"']))

/-- A text as a literal. -/
def textConstant (text : String) : Expression := .unwritten (.constant (.string text))

/-- A text with values in it: a constant if there are none, else an interpolation of the texts
before, between and behind them. -/
def textExpression (text : String) : List (Name × String) → Expression
  | [] => textConstant text
  | value :: values =>
    .unwritten (.interpolation
      (textConstant text :: (value :: values).map fun v => textConstant v.2)
      ((value :: values).map fun v => .ofName v.1.text))

/-! ### Escaped characters -/

theorem escape_mark {c : Char} (hc : c ∈ ['\'', '"', '\\', '$']) (cs : List Char) :
    Reads escape ('\\' :: c :: cs) cs (· = c) := by
  simp only [List.mem_cons, List.not_mem_nil, or_false] at hc
  rcases hc with rfl | rfl | rfl | rfl <;> exact fun pos => ⟨_, _, _, rfl, rfl⟩

theorem escape_fails {cs : List Char} (h : ∀ c ∈ cs.head?, c ≠ '\\') : Fails escape cs :=
  Fails.bind (Fails.exactly (not_starts_of_head (f := (· == '\\')) (by decide) fun c hc =>
    beq_false_of_ne (h c hc)))

/-- If each character takes a round, then so does each character of a text, and the rounds go on
behind it. -/
theorem Repeats.escaped {α : Type} {p : Parser α} {marks : List Char} {of : Char → α}
    (hchar : ∀ c cs, Reads p (escapedChar marks c ++ cs) cs (· = of c)) {cs rest : List Char}
    {holds : List α → Prop} (hrest : Repeats p cs rest holds) (text : String) :
    Repeats p (Grammar.escaped marks text ++ cs) rest fun xs =>
      ∃ ys, xs = text.toList.map of ++ ys ∧ holds ys := by
  rw [Grammar.escaped]
  induction text.toList with
  | nil => exact hrest.mono fun ys hys => ⟨ys, rfl, hys⟩
  | cons c text ih =>
    rw [List.flatMap_cons, List.append_assoc]
    refine Repeats.round (hchar c _) ?_ ih ?_
    · simp only [List.length_append, escapedChar]
      split <;> simp
    · rintro _ _ rfl ⟨ys, rfl, hys⟩
      exact ⟨ys, rfl, hys⟩

/-! ### Single quotes -/

theorem quoted_char (c : Char) (cs : List Char) :
    Reads (orElse (satisfy fun c => c != '\'' && c != '\\') escape)
      (escapedChar quotedMarks c ++ cs) cs (· = c) := by
  rw [escapedChar]
  split
  · rename_i hmark
    have hescapes : quotedMarks ⊆ ['\'', '"', '\\', '$'] := by decide
    refine Reads.orElse_right (Fails.satisfy ?_) (escape_mark (hescapes hmark) cs)
    rintro d ⟨⟩
    decide
  · rename_i hplain
    refine Reads.orElse_left (Reads.satisfy ?_)
    simpa [quotedMarks] using hplain

theorem reads_quoted (text : String) (rest : List Char) :
    Reads quoted (quotedText text ++ rest) rest (· = text) := by
  have hstop : Repeats (orElse (satisfy fun c => c != '\'' && c != '\\') escape)
      ('\'' :: rest) ('\'' :: rest) (· = []) := by
    refine Repeats.stop (Fails.orElse (Fails.satisfy ?_) (escape_fails ?_)) rfl
    · rintro c ⟨⟩
      decide
    · rintro c ⟨⟩
      decide
  have hcontent := (Repeats.escaped quoted_char hstop text).many
  rw [quotedText, List.cons_append, List.append_assoc, List.singleton_append]
  refine (Reads.exactly ['\''] _).bind fun _ _ => hcontent.bind ?_
  rintro _ ⟨_, rfl, rfl⟩
  refine (Reads.exactly ['\''] rest).bind fun _ _ => Reads.pure ?_
  rw [List.map_id', List.append_nil, String.ofList_toList]

/-! ### Double quotes -/

/-- No value starts where there is no `$`. -/
theorem values_fail {cs : List Char} (h : ∀ c ∈ cs.head?, c ≠ '$') (g : Inner) :
    Fails (Fragment.value <$> interpolatedExpression g) cs ∧
      Fails (Fragment.value <$> interpolatedPath) cs := by
  have hdollar {w : List Char} (hw : w.head?.any (· == '$') = true) : ¬ w <+: cs :=
    not_starts_of_head hw fun c hc => beq_false_of_ne (h c hc)
  exact ⟨(Fails.exactly (hdollar (by decide))).bind.map,
    (Fails.exactly (hdollar (by decide))).bind.map⟩

theorem fragment_char (g : Inner) (c : Char) (cs : List Char) :
    Reads (fragment g) (escapedChar doubleQuotedMarks c ++ cs) cs (· = Fragment.char c) := by
  rw [escapedChar]
  split
  · rename_i hmark
    have hescapes : doubleQuotedMarks ⊆ ['\'', '"', '\\', '$'] := by decide
    have hhead : ∀ d ∈ (['\\', c] ++ cs).head?, d ≠ '$' := by
      rintro d ⟨⟩
      decide
    -- the two kinds of values are tried before an escape
    obtain ⟨hbraces, hpath⟩ := values_fail hhead g
    refine Reads.firstOf_skip hbraces (Reads.firstOf_skip hpath (Reads.firstOf_head ?_))
    exact (escape_mark (hescapes hmark) cs).map fun d hd => congrArg Fragment.char hd
  · rename_i hplain
    obtain ⟨hquote, hslash, hdollar⟩ : c ≠ '"' ∧ c ≠ '\\' ∧ c ≠ '$' := by
      simpa [doubleQuotedMarks] using hplain
    have hhead : ∀ d ∈ ([c] ++ cs).head?, d ≠ '$' := by
      rintro d ⟨⟩
      exact hdollar
    obtain ⟨hbraces, hpath⟩ := values_fail hhead g
    have hescape : Fails escape ([c] ++ cs) := escape_fails (by rintro d ⟨⟩; exact hslash)
    refine Reads.firstOf_skip hbraces (Reads.firstOf_skip hpath
      (Reads.firstOf_skip hescape.map (Reads.firstOf_head ?_)))
    exact (Reads.satisfy (by simp [hquote, hslash])).map fun d hd => congrArg Fragment.char hd

/-- A name between braces is an expression. -/
theorem expression_of_name (x : Name) (g : Inner) (cs : List Char) :
    Reads (expression g) (x.chars ++ '\x7d' :: cs) ('\x7d' :: cs) (·.Same (.ofName x.text)) := by
  have hrest : Signless ('\x7d' :: cs) := Signless.cons (by decide) cs
  have hend : ∀ d ∈ ('\x7d' :: cs).head?, isNamePart d = false := by
    rintro d ⟨⟩
    decide
  have hunmarked := unmarked_name x hend
  have hname : Reads variableName (x.chars ++ '\x7d' :: cs) ('\x7d' :: cs)
      (·.Same (.ofName x.text)) := by
    have hidentifier : Reads identifier (x.chars ++ ([] ++ '\x7d' :: cs)) ('\x7d' :: cs)
        (· = x.text) := identifier_name x (List.forall_mem_nil _) hrest.solid hend
    refine hidentifier.spanned.bind ?_
    rintro ⟨_, span⟩ rfl
    exact Reads.pure rfl
  exact hrest.expression_of_primary (hunmarked.cast g)
    (Reads.firstOf_tail (hunmarked.unopened.literal g) (hunmarked.beforeName g) hname [])

/-- A value in braces is a fragment. -/
theorem fragment_value (x : Name) (n : Nat) (cs : List Char) :
    Reads (fragment (level (n + 1))) (['$', '\x7b'] ++ x.chars ++ ['\x7d'] ++ cs) cs fun f =>
      ∃ e, f = .value e ∧ e.Same (.ofName x.text) := by
  have hvalue : Reads (interpolatedExpression (level (n + 1)))
      (['$', '\x7b'] ++ x.chars ++ ['\x7d'] ++ cs) cs (·.Same (.ofName x.text)) := by
    rw [List.append_assoc, List.append_assoc]
    refine (Reads.exactly ['$', '\x7b'] _).bind fun _ _ =>
      (expression_of_name x (level n) cs).bind fun e he => ?_
    exact (Reads.exactly ['\x7d'] cs).bind fun _ _ => Reads.pure he
  exact Reads.firstOf_head (hvalue.map fun e he => ⟨e, rfl, he⟩)

/-! ### Fragments -/

/-- The fragments are values with the texts behind them. -/
def Holds (values : List (Name × String)) (split : List (Expression × List Char)) : Prop :=
  List.Forall₂ (fun v r => r.1.Same (.ofName v.1.text) ∧ r.2 = v.2.toList) values split

/-- Characters in front belong to the text before the first value. -/
theorem splitFragments_chars (cs : List Char) (rest : List Fragment) :
    splitFragments (cs.map Fragment.char ++ rest) =
      (cs ++ (splitFragments rest).1, (splitFragments rest).2) := by
  induction cs with
  | nil => rfl
  | cons c cs ih =>
    rw [List.map_cons, List.cons_append, splitFragments, ih]
    rfl

/-- The rounds from the first value on. -/
theorem repeats_values (values : List (Name × String)) (n : Nat) (rest : List Char) :
    Repeats (fragment (level (n + 1))) (valuesText values ++ '"' :: rest) ('"' :: rest)
      fun fragments => ∃ split, splitFragments fragments = ([], split) ∧ Holds values split := by
  induction values with
  | nil =>
    -- the closing quote starts no fragment of any kind
    have hhead : ∀ d ∈ ('"' :: rest).head?, d ≠ '$' := by
      rintro d ⟨⟩
      decide
    obtain ⟨hbraces, hpath⟩ := values_fail hhead (level (n + 1))
    refine Repeats.stop (Fails.firstOf hbraces ?_) ⟨[], rfl, .nil⟩
    simp only [List.forall_mem_cons, List.not_mem_nil, false_implies, implies_true, and_true]
    refine ⟨hpath, (escape_fails ?_).map, (Fails.satisfy ?_).map⟩
    · rintro c ⟨⟩
      decide
    · rintro c ⟨⟩
      decide
  | cons value values ih =>
    obtain ⟨x, text⟩ := value
    -- the text behind the value takes its own rounds, one for each character
    have hmore := Repeats.escaped (fragment_char (level (n + 1))) ih text
    have hcons : valuesText ((x, text) :: values) ++ '"' :: rest =
        ['$', '\x7b'] ++ x.chars ++ ['\x7d'] ++
          (escaped doubleQuotedMarks text ++ (valuesText values ++ '"' :: rest)) := by
      simp only [valuesText, List.flatMap_cons, List.append_assoc]
    rw [hcons]
    refine Repeats.round (fragment_value x n _) ?_ hmore ?_
    · simp only [List.length_append, List.length_cons]
      omega
    · rintro _ _ ⟨e, rfl, he⟩ ⟨fragments, rfl, split, hsplit, hholds⟩
      refine ⟨(e, text.toList) :: split, ?_, .cons ⟨he, rfl⟩ hholds⟩
      rw [splitFragments, splitFragments_chars, hsplit, List.append_nil]

theorem revised_textConstant (text : String) (span : Span) :
    (Expression.written (.constant (.string (String.ofList text.toList))) span).revised .unplaced =
      (textConstant text).revised .unplaced := by
  rw [String.ofList_toList]
  rfl

/-- The texts are the constants behind the values. -/
theorem Holds.texts {values : List (Name × String)} {split : List (Expression × List Char)}
    (h : Holds values split) (span : Span) :
    (split.map fun r => (Expression.written (.constant (.string (String.ofList r.2))) span).revised
      .unplaced) = values.map fun v => (textConstant v.2).revised .unplaced := by
  induction h with
  | nil => rfl
  | cons hv _ ih =>
    rw [List.map_cons, List.map_cons, ih, hv.2, revised_textConstant]

theorem Holds.values {values : List (Name × String)} {split : List (Expression × List Char)}
    (h : Holds values split) :
    (split.map fun r => r.1.revised .unplaced) =
      values.map fun v => (Expression.ofName v.1.text).revised .unplaced := by
  induction h with
  | nil => rfl
  | cons hv _ ih => rw [List.map_cons, List.map_cons, ih, show _ = _ from hv.1]

theorem same_interpolation {fragments fragments' values values' : List Expression}
    (hfragments : fragments.map (·.revised .unplaced) = fragments'.map (·.revised .unplaced))
    (hvalues : values.map (·.revised .unplaced) = values'.map (·.revised .unplaced)) (span : Span) :
    (Expression.written (.interpolation fragments values) span).Same
      (.unwritten (.interpolation fragments' values')) := by
  rw [Expression.Same]
  simp only [Expression.written, Expression.unwritten, Expression.revised, ExpressionNode.revised,
    revisedExpressions_eq_map, hfragments, hvalues]
  rfl

/-- What the fragments make. -/
theorem textOf_same {text : String} {values : List (Name × String)} {fragments : List Fragment}
    {split : List (Expression × List Char)}
    (hsplit : splitFragments fragments = (text.toList, split)) (h : Holds values split)
    (span : Span) : (textOf fragments span).Same (textExpression text values) := by
  have htexts := h.texts span
  have hvalues := h.values
  rw [textOf, hsplit]
  cases h with
  | nil => exact revised_textConstant text span
  | cons hv hvs =>
    refine same_interpolation ?_ ?_ span
    · refine congrArg₂ List.cons (revised_textConstant text span) ?_
      simp only [List.map_cons, List.map_map] at htexts ⊢
      exact htexts
    · rw [List.map_map, List.map_map]
      exact hvalues

theorem reads_doubleQuoted (text : String) (values : List (Name × String)) (n : Nat)
    (rest : List Char) :
    Reads (doubleQuoted (level (n + 1))) (doubleQuotedText text values ++ rest) rest
      (·.Same (textExpression text values)) := by
  have hcontent := (Repeats.escaped (fragment_char (level (n + 1)))
    (repeats_values values n rest) text).many
  have hquotes : Reads
      (do
        exactly ['"']
        let fragments ← many (fragment (level (n + 1)))
        exactly ['"']
        pure fragments) (doubleQuotedText text values ++ rest) rest fun fragments =>
      ∃ split, splitFragments fragments = (text.toList, split) ∧ Holds values split := by
    rw [doubleQuotedText, List.cons_append, List.append_assoc, List.append_assoc,
      List.singleton_append]
    refine (Reads.exactly ['"'] _).bind fun _ _ => hcontent.bind ?_
    rintro _ ⟨fragments, rfl, split, hsplit, hholds⟩
    refine (Reads.exactly ['"'] rest).bind fun _ _ => Reads.pure ⟨split, ?_, hholds⟩
    rw [splitFragments_chars, hsplit, List.append_nil]
  refine hquotes.spanned.bind ?_
  rintro ⟨fragments, span⟩ ⟨split, hsplit, hholds⟩
  exact Reads.pure (textOf_same hsplit hholds span)

/-! ### Whole sources -/

/-- What is read from the whole text is a token. -/
theorem reads_alone {α : Type} {p : Parser α} {cs : List Char} {holds : α → Prop}
    (hcs : Signless cs) (hp : Reads p (cs ++ []) [] holds) : Reads (token p) cs [] holds := by
  rw [List.append_nil] at hp
  exact Reads.token hcs.solid (show Reads p cs ([] ++ []) holds from hp) (List.forall_mem_nil _)
    Solid.nil

theorem signless_quotedText (text : String) : Signless (quotedText text) :=
  Signless.cons (by decide) _

theorem signless_doubleQuotedText (text : String) (values : List (Name × String)) :
    Signless (doubleQuotedText text values) := Signless.cons (by decide) _

theorem literal_quotedText (text : String) (g : Inner) :
    Reads (literal g) (quotedText text) [] (·.Same (textConstant text)) := by
  have hcs := signless_quotedText text
  have hnumber : Fails number (quotedText text) :=
    number_fails_of_noDigit (by rintro c ⟨⟩; decide)
  have htoken : Reads (Constant.string <$> token quoted) (quotedText text) []
      (· = .string text) :=
    (reads_alone hcs (reads_quoted text [])).map fun _ hx => congrArg Constant.string hx
  refine Reads.firstOf_skip (Fails.token hcs.solid hnumber).spanned.bind
    (Reads.firstOf_head (htoken.spanned.bind ?_))
  rintro ⟨_, span⟩ rfl
  exact Reads.pure rfl

theorem literal_doubleQuotedText (text : String) (values : List (Name × String)) (n : Nat) :
    Reads (literal (level (n + 1))) (doubleQuotedText text values) []
      (·.Same (textExpression text values)) := by
  have hcs := signless_doubleQuotedText text values
  have hnumber : Fails number (doubleQuotedText text values) :=
    number_fails_of_noDigit (by rintro c ⟨⟩; decide)
  have hquoted : Fails quoted (doubleQuotedText text values) :=
    (Fails.exactly (not_starts_of_head (f := (· == '\'')) (by decide)
      (by rintro c ⟨⟩; decide))).bind
  exact Reads.firstOf_skip (Fails.token hcs.solid hnumber).spanned.bind
    (Reads.firstOf_skip (Fails.token hcs.solid hquoted).map.spanned.bind
      (Reads.firstOf_head (reads_alone hcs (reads_doubleQuoted text values n []))))

/-- A literal is a source of one statement. -/
theorem parse_literal {cs : List Char} {e : Expression} (hne : cs ≠ []) (hcs : Signless cs)
    (hliteral : Reads (literal (level (cs.length + 1))) cs [] (·.Same e)) :
    ∃ e' span, Script.parse (String.ofList cs) = .ok ⟨[⟨.expression e', span⟩], [], []⟩ ∧
      e'.Same e := by
  obtain ⟨_, hparse, _, span, rfl, e', rfl, he'⟩ := parse_of_script
    (script_of_node hcs.solid hne hcs.undeclared hcs.untyped
      (statementNode_of_literal hcs Signless.nil hliteral))
  exact ⟨e', span, hparse, he'⟩

/-- A text between quotes is read as that text.  In single quotes it is a constant.  In double
quotes, with values `${name}` in it, it is an interpolation of exactly the texts before, between and
behind the values; without values it is a constant. -/
theorem parse_textLiteral :
    (∀ text, ∃ e span, Script.parse (String.ofList (quotedText text)) =
      .ok ⟨[⟨.expression e, span⟩], [], []⟩ ∧ e.Same (textConstant text)) ∧
    ∀ text values, ∃ e span, Script.parse (String.ofList (doubleQuotedText text values)) =
      .ok ⟨[⟨.expression e, span⟩], [], []⟩ ∧ e.Same (textExpression text values) :=
  ⟨fun text => parse_literal (List.cons_ne_nil _ _) (signless_quotedText text)
      (literal_quotedText text _),
    fun text values => parse_literal (List.cons_ne_nil _ _) (signless_doubleQuotedText text values)
      (literal_doubleQuotedText text values _)⟩

end ScriptOutline.Grammar
