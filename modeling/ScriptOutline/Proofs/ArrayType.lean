/-
ScriptOutline/Proofs/ArrayType.lean

The type of an array creation, from its text up to what a compilation tells.  Behind the word `new`
and a class type there stand either dimensions with a size and then empty ones, or empty ones and
the elements (`Dimensions`).  All of them are read, but not all of them count: the sizes are kept,
the empty dimensions behind them are not (`reads_sizedArray`).  In front of elements all count: one
is the array's own and the others go into the type of an element (`reads_initializedArray`).

Text is given by what reads it, so types, sizes and elements are any.  The main result is
`Compilation.compile_arrayCreation`.
-/
import ScriptOutline.Proofs.Passage
import ScriptOutline.Proofs.ReadBack
import ScriptOutline.Proofs.Settled

namespace ScriptOutline

/-! ### The type of an array -/

/-- The expression is an array whose element type is the named one with so many pairs of brackets
that the array has the given number of them. -/
def Expression.IsArray (name : String) (dimensions : Nat) (e : Expression) : Prop :=
  ∃ type elements sizes span, e = .written (.array type elements sizes) span ∧ type.name = name ∧
    type.dimensions + max sizes.length 1 = dimensions

/-- In whatever class it stands, an array gets its name and its brackets for a type. -/
theorem Expression.IsArray.inferred {name : String} {dimensions : Nat} {e : Expression}
    (h : e.IsArray name dimensions) (k : ClassContext) (inStatic : Bool) (env : Scope) :
    (e.bound k inStatic env).infer.inferred = some (name ++ repeated "[]" dimensions) := by
  obtain ⟨type, elements, sizes, span, rfl, rfl, rfl⟩ := h
  have hsizes (env : Scope) :
      (inferExpressions (boundExpressions k inStatic env sizes)).length = sizes.length := by
    rw [inferExpressions_eq_map, List.length_map, length_boundExpressions]
  simp only [Expression.written, Expression.bound, ExpressionNode.bound, Expression.infer,
    ExpressionNode.infer, ExpressionNode.typeOf, hsizes, Option.some_or]
  rfl

namespace Grammar

open ScriptOutline.Grammar.Parser

/-! ### Empty dimensions -/

/-- A pair of brackets with nothing but blanks between them and behind them. -/
structure EmptyPair where
  inside : List Char
  behind : List Char
  blank_inside : ∀ c ∈ inside, isBlank c = true
  blank_behind : ∀ c ∈ behind, isBlank c = true

def EmptyPair.chars (p : EmptyPair) : List Char := '[' :: (p.inside ++ (']' :: p.behind))

theorem EmptyPair.chars_append (p : EmptyPair) (cs : List Char) :
    p.chars ++ cs = '[' :: (p.inside ++ (']' :: (p.behind ++ cs))) := by
  simp [chars]

/-- Some pairs, one behind the other. -/
def pairsText (pairs : List EmptyPair) : List Char := pairs.flatMap EmptyPair.chars

theorem pairsText_cons_append (p : EmptyPair) (pairs : List EmptyPair) (cs : List Char) :
    pairsText (p :: pairs) ++ cs = p.chars ++ (pairsText pairs ++ cs) := by
  rw [pairsText, List.flatMap_cons, List.append_assoc, pairsText]

theorem solid_bracket (cs : List Char) : Solid ('[' :: cs) := Solid.cons (by decide) (by decide)

/-- Behind an opening bracket, and the blanks behind it, the pair is closed. -/
theorem EmptyPair.opening (p : EmptyPair) (cs : List Char) :
    Reads (symbol "[") (p.chars ++ cs) (']' :: (p.behind ++ cs)) fun _ => True := by
  rw [p.chars_append]
  exact Reads.symbol (s := "[") (solid_bracket _) p.blank_inside
    (Closing.cons (by decide) _).solid

theorem EmptyPair.reads (p : EmptyPair) {cs : List Char} (hcs : Solid cs) :
    Reads emptyBrackets (p.chars ++ cs) cs fun _ => True :=
  (p.opening cs).bind fun _ _ =>
    Reads.symbol (s := "]") (Closing.cons (by decide) _).solid p.blank_behind hcs

/-- An empty pair has no size. -/
theorem EmptyPair.noSize (p : EmptyPair) (cs : List Char) (n : Nat) :
    Fails (between "[" (level n).expression "]") (p.chars ++ cs) :=
  Fails.bind_after (p.opening cs) fun _ _ => ((Closing.cons (by decide) _).inner n).bind

theorem solid_pairsText (pairs : List EmptyPair) {cs : List Char} (hcs : Solid cs) :
    Solid (pairsText pairs ++ cs) := by
  cases pairs with
  | nil => exact hcs
  | cons p pairs =>
    rw [pairsText_cons_append, p.chars_append]
    exact solid_bracket _

/-- The text goes on with something other than a bracket. -/
structure NoDimension (cs : List Char) : Prop where
  solid : Solid cs
  head : cs.head? ≠ some '['

namespace NoDimension

variable {cs : List Char} (h : NoDimension cs)
include h

theorem symbol : Fails (Grammar.symbol "[") cs := by
  refine Fails.symbol h.solid ?_
  rintro ⟨rest, rfl⟩
  exact h.head rfl

theorem repeats (pairs : List EmptyPair) :
    Repeats emptyBrackets (pairsText pairs ++ cs) cs (·.length = pairs.length) := by
  induction pairs with
  | nil => exact Repeats.stop h.symbol.bind rfl
  | cons p pairs ih =>
    rw [pairsText_cons_append]
    refine Repeats.round (p.reads (solid_pairsText pairs h.solid)) ?_ ih ?_
    · rw [p.chars_append]
      simp only [List.length_cons, List.length_append]
      omega
    · intro _ xs _ hxs
      exact congrArg (· + 1) hxs

theorem noSize (pairs : List EmptyPair) (n : Nat) :
    Fails (between "[" (level n).expression "]") (pairsText pairs ++ cs) := by
  cases pairs with
  | nil => exact h.symbol.bind
  | cons p pairs =>
    rw [pairsText_cons_append]
    exact p.noSize _ n

end NoDimension

/-! ### Array creations -/

/-- The text is a class type of the given name, if a bracket stands behind it. -/
structure TypeText (g : Inner) (name : String) (cs : List Char) : Prop where
  solid : ∀ rest, Solid (cs ++ rest)
  reads : ∀ rest, rest.head? = some '[' → Reads (classType g) (cs ++ rest) rest (· = .named name)

/-- The text is a dimension with its size. -/
structure SizeText (g : Inner) (cs : List Char) : Prop where
  opens : cs.head? = some '['
  reads : ∀ rest, Solid rest → Reads (between "[" g.expression "]") (cs ++ rest) rest fun _ => True

/-- The text is the elements of an array in braces. -/
structure ElementsText (g : Inner) (cs : List Char) : Prop where
  opens : cs.head? = some '\x7b'
  reads : ∀ rest, Solid rest →
    Reads (between "\x7b" (separated g.expression (symbol ",") .allowed) "\x7d") (cs ++ rest) rest
      fun _ => True

/-- What may stand behind the type of an array creation, with the number of dimensions that count
and the number of those that are left out. -/
inductive Dimensions (g : Inner) : Nat → Nat → List Char → Prop where
  | sized {sizes : List (List Char)} (pairs : List EmptyPair) (hne : sizes ≠ [])
    (hsizes : ∀ s ∈ sizes, SizeText g s) :
    Dimensions g sizes.length pairs.length (sizes.flatten ++ pairsText pairs)
  | initialized {pairs : List EmptyPair} {elements : List Char} (hne : pairs ≠ [])
    (helements : ElementsText g elements) :
    Dimensions g pairs.length 0 (pairsText pairs ++ elements)

/-- A text behind the word `new`. -/
def afterNew (gap : Gap) (cs : List Char) : List Char := "new".toList ++ (gap.chars ++ cs)

section AfterNew

variable (gap : Gap) (cs : List Char)

theorem solid_afterNew : Solid (afterNew gap cs) := Solid.word (c := 'n') (by decide)

theorem word_afterNew : Reads word (afterNew gap cs) (gap.chars ++ cs) (· = "new") :=
  Reads.word (c := 'n') (w := ['e', 'w']) (by decide) (List.all_eq_true.mp (by decide))
    (isNamePart_eq_false_at_gap gap _)

theorem literal_afterNew (g : Inner) : Fails (literal g) (afterNew gap cs) := by
  have hother : ∀ w ∈ ["true", "false", "null"], "new" ≠ w := by decide
  refine literal_fails (by rintro c ⟨⟩; decide) (solid_afterNew gap cs) (fun w hw => ?_) g
  exact Fails.keyword_other (solid_afterNew gap cs) (word_afterNew gap cs) (hother w hw)

theorem cast_afterNew (g : Inner) : Fails (cast g) (afterNew gap cs) := by
  have hbracket : Fails (symbol "(") (afterNew gap cs) :=
    Fails.symbol (solid_afterNew gap cs)
      (not_starts_of_head (f := (· == '(')) (by decide) (by rintro c ⟨⟩; decide))
  exact (Fails.accepted hbracket.bind).bind.spanned.bind

end AfterNew

section Dimensions

variable {n : Nat} {name : String} {rest : List Char}

theorem SizeText.solid {g : Inner} {s : List Char} (h : SizeText g s) (cs : List Char) :
    Solid (s ++ cs) := by
  obtain ⟨tail, rfl⟩ := List.head?_eq_some_iff.mp h.opens
  exact solid_bracket _

theorem solid_sizes {g : Inner} {sizes : List (List Char)} (hsizes : ∀ s ∈ sizes, SizeText g s)
    {cs : List Char} (hcs : Solid cs) : Solid (sizes.flatten ++ cs) := by
  cases sizes with
  | nil => exact hcs
  | cons s sizes =>
    rw [List.flatten_cons, List.append_assoc]
    exact (hsizes s (List.mem_cons_self ..)).solid _

theorem repeats_sizes {g : Inner} {sizes : List (List Char)}
    (hsizes : ∀ s ∈ sizes, SizeText g s) {cs : List Char} (hcs : Solid cs)
    (hstop : Fails (between "[" g.expression "]") cs) :
    Repeats (between "[" g.expression "]") (sizes.flatten ++ cs) cs
      (·.length = sizes.length) := by
  induction sizes with
  | nil => exact Repeats.stop hstop rfl
  | cons s sizes ih =>
    obtain ⟨hs, hsizes⟩ := List.forall_mem_cons.mp hsizes
    have hlength : 0 < s.length := by
      obtain ⟨tail, rfl⟩ := List.head?_eq_some_iff.mp hs.opens
      exact Nat.succ_pos _
    rw [List.flatten_cons, List.append_assoc]
    refine Repeats.round (hs.reads _ (solid_sizes hsizes hcs)) ?_ (ih hsizes) ?_
    · simp only [List.length_append]
      omega
    · intro _ xs _ hxs
      exact congrArg (· + 1) hxs

theorem TypeText.keyword {g : Inner} {type : List Char} (h : TypeText g name type) (gap : Gap)
    (cs : List Char) :
    Reads (Grammar.keyword "new") (afterNew gap (type ++ cs)) (type ++ cs) fun _ => True :=
  Reads.keyword (solid_afterNew gap _) (word_afterNew gap _) gap.blank (h.solid cs)

/-- A creation with sizes: the empty dimensions behind them are read and left out. -/
theorem reads_sizedArray {type : List Char} (htype : TypeText (level n) name type) (gap : Gap)
    {sizes : List (List Char)} (hne : sizes ≠ []) (hsizes : ∀ s ∈ sizes, SizeText (level n) s)
    (pairs : List EmptyPair) (hrest : NoDimension rest) :
    Reads (sizedArray (level n))
      (afterNew gap (type ++ (sizes.flatten ++ (pairsText pairs ++ rest)))) rest
      (Expression.IsArray name sizes.length) := by
  obtain ⟨s, sizes, rfl⟩ := List.exists_cons_of_ne_nil hne
  obtain ⟨hs, hothers⟩ := List.forall_mem_cons.mp hsizes
  rw [List.flatten_cons, List.append_assoc]
  have hpairs : Solid (pairsText pairs ++ rest) := solid_pairsText pairs hrest.solid
  have hopens : (s ++ (sizes.flatten ++ (pairsText pairs ++ rest))).head? = some '[' := by
    rw [List.head?_append, hs.opens, Option.some_or]
  have hmany : Reads (many1 (between "[" (level n).expression "]"))
      (s ++ (sizes.flatten ++ (pairsText pairs ++ rest))) (pairsText pairs ++ rest)
      (·.length = (s :: sizes).length) :=
    Repeats.many1 (hs.reads _ (solid_sizes hothers hpairs))
      (repeats_sizes hothers hpairs (hrest.noSize pairs n)) fun _ xs _ hxs => congrArg (· + 1) hxs
  have hcreation : Reads
      (do
        keyword "new"
        let type ← classType (level n)
        let sizes ← many1 (between "[" (level n).expression "]")
        let _ ← many emptyBrackets
        pure (type, sizes))
      (afterNew gap (type ++ (s ++ (sizes.flatten ++ (pairsText pairs ++ rest))))) rest
      fun x => x.1 = .named name ∧ x.2.length = (s :: sizes).length :=
    (htype.keyword gap _).bind fun _ _ => (htype.reads _ hopens).bind fun _ ht =>
      hmany.bind fun _ hxs => (hrest.repeats pairs).many.bind fun _ _ => Reads.pure ⟨ht, hxs⟩
  refine hcreation.spanned.bind ?_
  rintro ⟨⟨_, xs⟩, span⟩ ⟨rfl, hxs⟩
  -- there is at least one size, so the number of sizes is the number of dimensions
  refine Reads.pure ⟨_, [], xs, span, rfl, rfl, ?_⟩
  rw [hxs]
  simp [TypeRef.named]

/-- In front of elements the empty dimensions end. -/
theorem ElementsText.noDimension {g : Inner} {elements : List Char} (h : ElementsText g elements)
    (cs : List Char) : NoDimension (elements ++ cs) := by
  obtain ⟨tail, rfl⟩ := List.head?_eq_some_iff.mp h.opens
  exact ⟨Solid.cons (by decide) (by decide), by simp⟩

/-- A creation with elements: all but one of the dimensions go into the type of an element. -/
theorem reads_initializedArray {type : List Char} (htype : TypeText (level n) name type)
    (gap : Gap) {pairs : List EmptyPair} (hne : pairs ≠ []) {elements : List Char}
    (helements : ElementsText (level n) elements) (hrest : Solid rest) :
    Reads (initializedArray (level n))
      (afterNew gap (type ++ (pairsText pairs ++ (elements ++ rest)))) rest
      (Expression.IsArray name pairs.length) := by
  obtain ⟨p, pairs, rfl⟩ := List.exists_cons_of_ne_nil hne
  have hend : NoDimension (elements ++ rest) := helements.noDimension rest
  have hopens : (pairsText (p :: pairs) ++ (elements ++ rest)).head? = some '[' := rfl
  have hmany : Reads (many1 emptyBrackets) (pairsText (p :: pairs) ++ (elements ++ rest))
      (elements ++ rest) (·.length = (p :: pairs).length) := by
    rw [pairsText_cons_append]
    exact Repeats.many1 (p.reads (solid_pairsText pairs hend.solid)) (hend.repeats pairs)
      fun _ xs _ hxs => congrArg (· + 1) hxs
  have hcreation : Reads
      (do
        keyword "new"
        let type ← classType (level n)
        let dimensions ← many1 emptyBrackets
        let elements ← between "\x7b"
          (separated (level n).expression (symbol ",") .allowed) "\x7d"
        pure (type, dimensions.length, elements))
      (afterNew gap (type ++ (pairsText (p :: pairs) ++ (elements ++ rest)))) rest
      fun x => x.1 = .named name ∧ x.2.1 = (p :: pairs).length :=
    (htype.keyword gap _).bind fun _ _ => (htype.reads _ hopens).bind fun _ ht =>
      hmany.bind fun _ hxs => (helements.reads rest hrest).bind fun _ _ => Reads.pure ⟨ht, hxs⟩
  refine hcreation.spanned.bind ?_
  rintro ⟨⟨_, _, es⟩, span⟩ ⟨rfl, rfl⟩
  exact Reads.pure ⟨_, es, [], span, rfl, rfl, rfl⟩

/-- An array creation is a primary, an array with the dimensions that count. -/
theorem Dimensions.primary {counted left : Nat} {type dims : List Char}
    (hdims : Dimensions (level n) counted left dims) (htype : TypeText (level n) name type)
    (gap : Gap) (hrest : NoDimension rest) :
    Reads (primary (level n)) (afterNew gap (type ++ (dims ++ rest))) rest
      (Expression.IsArray name counted) := by
  refine Reads.firstOf_skip (literal_afterNew gap _ _) ?_
  cases hdims with
  | sized pairs hne hsizes =>
    rw [List.append_assoc]
    exact Reads.firstOf_head (reads_sizedArray htype gap hne hsizes pairs hrest)
  | @initialized pairs elements hne helements =>
    rw [List.append_assoc]
    refine Reads.firstOf_skip ?_
      (Reads.firstOf_head (reads_initializedArray htype gap hne helements hrest.solid))
    -- the first dimension has no size, so it is no creation of the other kind
    obtain ⟨p, pairs, rfl⟩ := List.exists_cons_of_ne_nil hne
    have hend : NoDimension (elements ++ rest) := helements.noDimension rest
    exact (Fails.bind_after (htype.keyword gap _) fun _ _ =>
      Fails.bind_after (htype.reads _ rfl) fun _ _ =>
        (Fails.many1 (hend.noSize (p :: pairs) n)).bind).spanned.bind

theorem Closed.noDimension (h : Closed rest) : NoDimension rest where
  solid := h.ending.solid
  head hopen := absurd (h '[' hopen) (by decide)

/-- Where an expression ends, an array creation is one. -/
theorem Dimensions.expression {counted left : Nat} {type dims : List Char}
    (hdims : Dimensions (level n) counted left dims) (htype : TypeText (level n) name type)
    (gap : Gap) (hrest : Closed rest) :
    Reads (Grammar.expression (level n)) (afterNew gap (type ++ (dims ++ rest))) rest
      (Expression.IsArray name counted) := by
  have hsuffixed : Reads (suffixed (level n)) (afterNew gap (type ++ (dims ++ rest))) rest
      (Expression.IsArray name counted) :=
    suffixed_of_primary (hdims.primary htype gap hrest.noDimension)
      (Repeats.stop (hrest.follows.suffix _) fun _ he => he)
  exact expression_single (level n)
    (coerced_of_suffixed (cast_afterNew gap _ _) hsuffixed hrest.follows.noCast) hrest

end Dimensions

/-! ### Some of the texts -/

theorem typeText_name (x : Name) (g : Inner) : TypeText g x.text x.chars where
  solid := solid_name x
  reads rest hrest := by
    obtain ⟨tail, rfl⟩ := List.head?_eq_some_iff.mp hrest
    have hname : Reads identifier (x.chars ++ ('[' :: tail)) ('[' :: tail) (· = x.text) :=
      identifier_name x (List.forall_mem_nil _) (solid_bracket tail) (by rintro c ⟨⟩; decide)
    have hpart : Fails (do exactly ['.']; identifier) ('[' :: tail) :=
      Fails.bind (Fails.exactly (by simp))
    have hgenerics : Fails (between "<" (separated g.classType (symbol ",") .refused) ">")
        ('[' :: tail) := Fails.bind (Fails.symbol (solid_bracket tail) (by simp))
    refine hname.bind fun _ hx => (Reads.many_none hpart).bind fun _ hnone => ?_
    refine (Reads.optional_none hgenerics).bind fun _ _ => Reads.pure ?_
    rw [hx, hnone, joinWith_singleton]

theorem sizeText_formula {e : Expression} (h : Formula e) {n : Nat}
    (hn : e.text.toList.length ≤ n) :
    SizeText (level (n + 1)) ('[' :: (e.text.toList ++ [']'])) where
  opens := rfl
  reads rest hrest := by
    have hsize : Reads (expression (level n)) (e.text.toList ++ (']' :: ([] ++ rest)))
        (']' :: ([] ++ rest)) (·.unplaced = e.unplaced) :=
      h.readsSuffixed.expression h hn (by rintro c ⟨⟩; decide)
    have hbrackets : Reads (between "[" (level (n + 1)).expression "]")
        ('[' :: (e.text.toList ++ (']' :: rest))) rest (·.unplaced = e.unplaced) :=
      hsize.inBrackets (h.solid _) (List.forall_mem_nil _) hrest
    rw [List.cons_append, List.append_assoc]
    exact hbrackets.mono fun _ _ => trivial

theorem elementsText_none (n : Nat) : ElementsText (level n) ['\x7b', '\x7d'] where
  opens := rfl
  reads rest hrest := by
    have hclosing : Closing ('\x7d' :: rest) := Closing.cons (by decide) rest
    have hopen : Reads (symbol "\x7b") ('\x7b' :: '\x7d' :: rest) ('\x7d' :: rest) fun _ => True :=
      Reads.symbol_tight (s := "\x7b") (Solid.cons (by decide) (by decide)) hclosing.solid
    have hclose : Reads (symbol "\x7d") ('\x7d' :: rest) rest fun _ => True :=
      Reads.symbol_tight (s := "\x7d") hclosing.solid hrest
    exact hopen.bind fun _ _ => (Reads.separated_none (hclosing.inner n)).bind fun _ _ =>
      hclose.bind fun _ _ => Reads.pure trivial

end Grammar

/-! ### Compilations -/

namespace Compilation

open ScriptOutline.Grammar

variable {α : Type} {c : Compilation α} {name source : String}

/-- The code of a script that returns an expression, once types are told: the expression, bound
somewhere and with its types. -/
theorem compile_returned {phase : Phase} {answers : List α} {e : Expression} {span : Span}
    (hphase : .instructionSelection ≤ phase)
    (hparse : Script.parse source = .ok ⟨[⟨.ret e, span⟩], [], []⟩)
    (h : (new name source : Compilation α).compile phase = (c, .ok answers)) :
    ∃ m k env declared, c.module = some m ∧ m.statementBlock =
      some ⟨.block [⟨.ret (e.bound k false env).infer, span⟩] declared, .unwritten⟩ := by
  have hanalysed : .semanticAnalysis ≤ phase := Phase.le_trans (by decide) hphase
  obtain ⟨script, m₀, m, hscript, hm₀, -, hm, hclasses⟩ := compile_classes hanalysed h
  obtain rfl := Except.ok.inj (hparse.symm.trans hscript)
  obtain rfl := Except.ok.inj (hm₀.symm.trans rfl)
  obtain ⟨unit, classes⟩ := m
  subst hclasses
  -- `run` is the second method of the only class, and no later phase puts another before it
  cases phase
  case instructionSelection | classGeneration | output | finalization =>
    exact ⟨_, _, _, _, hm, rfl⟩
  all_goals exact absurd hphase (by decide)

/-- The type of an array creation is its class type with a pair of brackets for each dimension
that counts.  That is so wherever the creation stands: the rule for it answers an expression that
gets this type in every class and environment.  And it is what a compilation tells of a script
that returns the creation. -/
theorem compile_arrayCreation (gap before : Gap) {type dims : List Char} {name : String}
    {counted left n : Nat} (htype : TypeText (level n) name type)
    (hdims : Dimensions (level n) counted left dims) :
    (∀ rest, NoDimension rest →
      Reads (primary (level n)) (afterNew gap (type ++ (dims ++ rest))) rest fun e =>
        ∀ k inStatic env,
          (e.bound k inStatic env).infer.inferred = some (name ++ repeated "[]" counted)) ∧
    ∀ (unitName : String) (phase : Phase) (c : Compilation α) (answers : List α),
      n = (afterReturn before (afterNew gap (type ++ dims))).length + 1 →
      .instructionSelection ≤ phase →
      (new unitName (String.ofList (afterReturn before (afterNew gap (type ++ dims)))) :
        Compilation α).compile phase = (c, .ok answers) →
      ∃ m e span declared, c.module = some m ∧
        m.statementBlock = some ⟨.block [⟨.ret e, span⟩] declared, .unwritten⟩ ∧
        e.inferred = some (name ++ repeated "[]" counted) := by
  constructor
  · intro rest hrest
    exact (hdims.primary htype gap hrest).mono fun _ he => he.inferred
  · rintro unitName phase c answers rfl hphase h
    have hvalue := hdims.expression htype gap Closed.nil
    rw [List.append_nil] at hvalue
    obtain ⟨e, span, hparse, he⟩ := parse_afterReturn before (solid_afterNew gap _) hvalue
    obtain ⟨m, k, env, declared, hm, hblock⟩ := compile_returned hphase hparse h
    exact ⟨m, _, span, declared, hm, hblock, he.inferred k false env⟩

/-- The name `int`. -/
def intName : Name :=
  ⟨'i', ['n', 't'], by decide, List.all_eq_true.mp (by decide), by decide⟩

theorem compile_arrayCreation_int :
    (∃ (c : Compilation Unit) (m : CompiledModule) (e : Expression) (span : Span)
      (declared : Option (List String)),
      (new "Script1" "return new int[3][]").compile .instructionSelection = (c, .ok []) ∧
      c.module = some m ∧
      m.statementBlock = some ⟨.block [⟨.ret e, span⟩] declared, .unwritten⟩ ∧
      e.inferred = some "int[]") ∧
    Reads (primary (level 1)) "new int[][]\x7b\x7d".toList [] fun e => ∀ k inStatic env,
      (e.bound k inStatic env).infer.inferred = some "int[][]" := by
  have hblank : ∀ c ∈ ([] : List Char), isBlank c = true := List.forall_mem_nil _
  constructor
  · obtain ⟨c, -, hc, -⟩ := exists_of_passes (fun _ => true) "return new int[3][]"
      .instructionSelection (by decide +kernel)
    -- the source has 19 characters
    have hsize : SizeText (level 20) "[3]".toList :=
      sizeText_formula (.integer 3 (by decide) .unwritten) (by decide)
    have hdims : Dimensions (level 20) 1 1 "[3][]".toList :=
      .sized [⟨[], [], hblank, hblank⟩] (List.cons_ne_nil _ _) (List.forall_mem_singleton.mpr hsize)
    obtain ⟨m, e, span, declared, hm, hblock, he⟩ :=
      (compile_arrayCreation oneBlank oneBlank (typeText_name intName _) hdims).2
        "Script1" .instructionSelection c [] rfl (by decide) hc
    exact ⟨c, m, e, span, declared, hc, hm, hblock, he⟩
  · have hdims : Dimensions (level 1) 2 0 "[][]\x7b\x7d".toList :=
      @Dimensions.initialized _ [⟨[], [], hblank, hblank⟩, ⟨[], [], hblank, hblank⟩] _
        (List.cons_ne_nil _ _) (elementsText_none 1)
    exact (compile_arrayCreation (α := Unit) oneBlank oneBlank (typeText_name intName _) hdims).1 []
      Closed.nil.noDimension

/-- The type that is told of a script of one expression. -/
def statementType (m : CompiledModule) : Option String :=
  match m.statementBlock with
  | some ⟨.block [⟨.expression e, _⟩] _, _⟩ => e.inferred
  | _ => none

/-- Two dimensions are written, but the type has one. -/
theorem compile_emptyDimension :
    ∃ (c : Compilation Unit) (m : CompiledModule),
      (new "Script1" "new int[3][]").compile .instructionSelection = (c, .ok []) ∧
      c.module = some m ∧ statementType m = some "int[]" ∧
      statementType m ≠ some ("int" ++ repeated "[]" (1 + 1)) := by
  obtain ⟨c, m, hc, hm, htype⟩ := exists_of_passes (fun m => statementType m = some "int[]")
    "new int[3][]" .instructionSelection (by decide +kernel)
  have htype : statementType m = some "int[]" := of_decide_eq_true htype
  refine ⟨c, m, hc, hm, htype, ?_⟩
  rw [htype]
  decide

end Compilation

end ScriptOutline
