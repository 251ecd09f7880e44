/-
ScriptOutline/Proofs/DigitRun.lean

What the parser makes of digits that are assigned to a name.

An integer literal has no leading zeros: the rule stops behind a `0`, and nothing has to stand
between two statements.  So digits are cut (`digitRuns`) behind every zero they start with, and what
is left of them is one literal.  The first piece is the value that is assigned, and every other
piece is a statement of its own.  The pieces in front are zeros, so the last one has the value of
all digits; if that is too large, nothing can be read from it, and the source is refused.

The main result is `parse_assigned_digits`.  It gives one statement exactly for digits without a
needless zero in front.
-/
import Mathlib.Data.List.Forall2
import ScriptOutline.Proofs.Literal
import ScriptOutline.Proofs.MemberSign

namespace ScriptOutline.Grammar

open ScriptOutline.Grammar.Parser

/-! ### The pieces of a run of digits -/

/-- The pieces in which digits are read: each zero in front alone, then all that is left. -/
def digitRuns : List Char → List (List Char)
  | [] => []
  | c :: cs => if c = '0' then ['0'] :: digitRuns cs else [c :: cs]

/-- An integer literal. -/
def integerLiteral (n : Nat) : Expression := .unwritten (.constant (.integer n))

/-- The statement is an expression, up to spans. -/
def Evaluates (e : Expression) (s : Statement) : Prop :=
  ∃ e' span, s = ⟨.expression e', span⟩ ∧ e'.Same e

section Digits

variable {g : Inner} {cs rest : List Char}

/-- What reads as a number reads as an integer literal. -/
theorem literal_of_number {n : Nat} (hcs : Signless cs) (hrest : Signless rest)
    (hnumber : Reads number cs rest (· = .integer n)) :
    Reads (literal g) cs rest (·.Same (integerLiteral n)) := by
  have htoken : Reads (token number) cs rest (· = .integer n) :=
    Reads.token hcs.solid (show Reads number cs ([] ++ rest) _ from hnumber)
      (List.forall_mem_nil _) hrest.solid
  refine Reads.firstOf_head (htoken.spanned.bind ?_)
  rintro ⟨_, span⟩ rfl
  exact Reads.pure rfl

theorem signless_digits (h : ∀ c ∈ cs, c.isDigit = true) : Signless cs := fun c hc => by
  rw [isSignless, h c (List.mem_of_mem_head? hc), Bool.true_or]

theorem noFraction (h : ∀ c ∈ cs, c.isDigit = true) :
    Fails (do exactly ['.']; many1 (satisfy Char.isDigit)) cs := by
  refine (Fails.exactly (not_starts_of_head (f := (· == '.')) (by decide) fun c hc => ?_)).bind
  refine beq_false_of_ne ?_
  rintro rfl
  exact absurd (h '.' (List.mem_of_mem_head? hc)) (by decide)

/-- Behind a zero the number ends, whatever digits follow. -/
theorem number_zero (hcs : ∀ c ∈ cs, c.isDigit = true) :
    Reads number ('0' :: cs) cs (· = .integer 0) :=
  number_of_integerDigits (integerDigits_zero cs) (noFraction hcs) (by decide)

theorem integerDigits_all {c : Char} (hall : ∀ d ∈ c :: cs, d.isDigit = true) (hc : c ≠ '0') :
    Reads integerDigits (c :: cs) [] (· = c :: cs) := by
  have hend : ∀ d ∈ ([] : List Char).head?, d.isDigit = false := by simp
  have hdigits := integerDigits_nonzero hall hc hend
  rwa [List.append_nil] at hdigits

/-- Digits from which no number can be read are no expression. -/
theorem expression_fails_of_number {c : Char} (hall : ∀ d ∈ c :: cs, d.isDigit = true)
    (hnumber : Fails number (c :: cs)) (g : Inner) : Fails (expression g) (c :: cs) := by
  have hcs := signless_digits hall
  have hdigit : c.isDigit = true := hall c (List.mem_cons_self ..)
  have hmarks : ∀ w ∈ [['\''], ['"'], ['~', '/']], ¬ w <+: c :: cs := by
    have hheads : ∀ w ∈ [['\''], ['"'], ['~', '/']],
        w.head?.any (fun c => !c.isDigit) = true := by decide
    refine fun w hw => not_starts_of_head (hheads w hw) ?_
    rintro d ⟨⟩
    rw [hdigit, Bool.not_true]
  exact hcs.expression_fails
    (literal_fails_of_number hcs.solid hnumber hmarks (fun w _ => hcs.keyword w) g)

end Digits

/-! ### Digits as statements -/

section Items

variable {g : Inner} {cs rest : List Char}

theorem item_of_number {n : Nat} (hcs : Signless cs) (hrest : Signless rest)
    (hnumber : Reads number cs rest (· = .integer n)) :
    Reads (item g) cs rest fun i => ∃ s, i = .statement s ∧ Evaluates (integerLiteral n) s := by
  refine (item_of_node hcs.undeclared hcs.untyped
    (statementNode_of_literal hcs hrest (literal_of_number hcs hrest hnumber))
    (hrest.symbol (by decide))).mono ?_
  rintro _ ⟨_, span, rfl, e, rfl, he⟩
  exact ⟨_, rfl, e, span, rfl, he⟩

/-- The statements are what is left after all pieces of the digits. -/
theorem items_of_digits (hall : ∀ c ∈ cs, c.isDigit = true)
    (hle : decimalValue cs ≤ greatestInteger) :
    Repeats (item g) cs [] fun items => ∃ statements, items = statements.map Item.statement ∧
      List.Forall₂ (fun run => Evaluates (integerLiteral (decimalValue run)))
        (digitRuns cs) statements := by
  induction cs with
  | nil => exact Repeats.stop (item_end g) ⟨[], rfl, .nil⟩
  | cons c cs ih =>
    obtain ⟨-, htail⟩ := List.forall_mem_cons.mp hall
    have hcs := signless_digits hall
    rw [digitRuns]
    split
    · -- a zero is a statement, and the other digits have the value of all
      subst c
      refine Repeats.round (item_of_number hcs (signless_digits htail) (number_zero htail))
        (Nat.lt_succ_self _) (ih htail hle) ?_
      rintro _ _ ⟨s, rfl, hs⟩ ⟨statements, rfl, hstatements⟩
      exact ⟨s :: statements, rfl, .cons hs hstatements⟩
    · -- any other digit starts a number that takes all digits
      rename_i hc
      have hnumber := number_of_integerDigits (integerDigits_all hall hc)
        (noFraction (List.forall_mem_nil _)) hle
      refine Repeats.round (item_of_number hcs Signless.nil hnumber) (Nat.succ_pos _)
        (Repeats.stop (item_end g) rfl) ?_
      rintro _ _ ⟨s, rfl, hs⟩ rfl
      exact ⟨[s], rfl, .cons hs .nil⟩

/-- Of digits with too large a value some are left. -/
theorem items_stop (hall : ∀ c ∈ cs, c.isDigit = true)
    (hlt : greatestInteger < decimalValue cs) :
    ∃ rest, rest ≠ [] ∧ Repeats (item g) cs rest fun _ => True := by
  -- zeros in front are read; what is left has the same value, and is refused as one number
  induction cs with
  | nil => exact absurd hlt (by decide)
  | cons c cs ih =>
    obtain ⟨-, htail⟩ := List.forall_mem_cons.mp hall
    have hcs := signless_digits hall
    by_cases hc : c = '0'
    · subst c
      obtain ⟨rest, hrest, hitems⟩ := ih htail hlt
      exact ⟨rest, hrest, Repeats.round
        (item_of_number hcs (signless_digits htail) (number_zero htail))
        (Nat.lt_succ_self _) hitems fun _ _ _ _ => trivial⟩
    · have hnumber := number_too_large (integerDigits_all hall hc)
        (noFraction (List.forall_mem_nil _)) hlt
      exact ⟨c :: cs, List.cons_ne_nil c cs, Repeats.stop
        (item_fails hcs.undeclared (hcs.keyword "return") hcs.untyped
          (expression_fails_of_number hall hnumber g) (hcs.symbol (by decide))) trivial⟩

end Items

/-! ### An assignment to a name -/

/-- The sign of an assignment. -/
def plainAssignment : Operator := ⟨assignmentTier, "=", by decide⟩

/-- A value and the sign before it: `= value`. -/
def assignedValue (cs : List Char) : List Char := operatorText plainAssignment oneBlank cs

/-- An assignment to a name: `x = value`. -/
def assignmentText (x : Name) (cs : List Char) : List Char :=
  x.chars ++ (oneBlank.chars ++ assignedValue cs)

/-- The assignment of an expression to a name. -/
def assignment (x : Name) (e : Expression) : Expression :=
  .unwritten (.binary (.ofName x.text) "=" e)

section Assignment

variable (x : Name) {cs : List Char}

theorem solid_assignedValue (cs : List Char) : Solid (assignedValue cs) :=
  solid_operatorText plainAssignment oneBlank cs

theorem barren_assignedValue (cs : List Char) : Barren (assignedValue cs) := by
  rintro c ⟨⟩
  decide

theorem undeclared_assignmentText : Undeclared (assignmentText x cs) :=
  undeclared_name x (isNamePart_eq_false_at_gap oneBlank _)

theorem endsType_assignedValue (g : Inner) : EndsType g (assignedValue cs) where
  solid := solid_assignedValue cs
  part := Fails.bind (Fails.exactly (not_starts_of_head (f := (· == '.')) (by decide)
    (by rintro c ⟨⟩; decide)))
  generics := (symbol_operatorText_of_not_starts (by decide) plainAssignment oneBlank cs
    (by decide)).bind
  dimension := (symbol_operatorText (by decide) plainAssignment oneBlank cs).bind

/-- A name is no type of a declaration, since the sign behind it is no name. -/
theorem untyped_assignmentText (g : Inner) : Untyped g (assignmentText x cs) := by
  -- the name itself can be read as a type, so the failure comes only behind it
  have htype := (Formula.name x .unwritten).typeName_or (g := g) oneBlank.blank
    (endsType_assignedValue g) (Apart.cons (by decide) (by decide) (assignedValue cs))
  rw [text_name] at htype
  refine htype.imp_right ?_
  rintro ⟨rest, hreads, hrest⟩
  exact ⟨rest, hreads, hrest.identifier
    (Fails.identifier (solid_assignedValue cs) (by rintro c ⟨⟩; decide))⟩

theorem conditional_target {n : Nat} (hn : x.chars.length ≤ n) (hcs : Solid cs) :
    Reads (conditional (level n)) (assignmentText x cs) (assignedValue cs)
      (·.unplaced = .ofName x.text) := by
  have hone := (readsSuffixed_name x .unwritten).coerced (.name x .unwritten) (n := n)
    (by rwa [text_name]) (Connective.follows (.operator plainAssignment) cs)
  rw [text_name] at hone
  exact (conditional_readsRung (level n)).single hone
    (.connective (.operator plainAssignment) hcs (by decide))

/-- The value of the assignment is what is read behind the sign. -/
theorem expression_assigned {n : Nat} (hn : x.chars.length ≤ n) (hcs : Solid cs)
    {rest : List Char} {value : Expression}
    (hvalue : Reads (level n).expression cs rest (·.Same value)) :
    Reads (expression (level n)) (assignmentText x cs) rest (·.Same (assignment x value)) := by
  have hassigned : Reads
      (do
        let operation ← signs "**=" ["+=", "-=", "*=", "/=", "%=", "="]
        let value ← (level n).expression
        pure (operation, value)) (assignedValue cs) rest fun r => r.1 = "=" ∧ r.2.Same value :=
    (assignment_readsSigns.own plainAssignment oneBlank cs hcs rfl).bind fun _ ho =>
      hvalue.bind fun _ hv => Reads.pure ⟨ho, hv⟩
  have hsome : Reads (optional _) (assignedValue cs) rest fun assigned =>
      ∃ v : Expression, assigned = some ("=", v) ∧ v.Same value :=
    hassigned.optional fun r hr => ⟨r.2, congrArg some (Prod.ext hr.1 rfl), hr.2⟩
  refine (conditional_target x hn hcs).bind fun target htarget => hsome.bind ?_
  rintro _ ⟨v, rfl, hv⟩
  refine Reads.pure ?_
  have hleft : target.revised .unplaced = .ofName x.text := by
    rw [← target.revised_unplaced, htarget]
    rfl
  have hright : v.revised .unplaced = value.revised .unplaced := hv
  show Expression.mk (.binary (target.revised .unplaced) "=" (v.revised .unplaced)) .unwritten
    none = _
  rw [hleft, hright]
  rfl

/-- If no value can be read behind the sign, the name is an expression by itself. -/
theorem expression_unassigned {n : Nat} (hn : x.chars.length ≤ n) (hcs : Solid cs)
    (hvalue : Fails (level n).expression cs) :
    Reads (expression (level n)) (assignmentText x cs) (assignedValue cs) fun _ => True := by
  have hassigned : Fails
      (do
        let operation ← signs "**=" ["+=", "-=", "*=", "/=", "%=", "="]
        let value ← (level n).expression
        pure (operation, value)) (assignedValue cs) :=
    Fails.bind_after (assignment_readsSigns.own plainAssignment oneBlank cs hcs rfl)
      fun _ _ => hvalue.bind
  refine (conditional_target x hn hcs).bind fun target _ =>
    (Reads.optional_none hassigned).bind fun assigned hnone => ?_
  rw [hnone]
  exact Reads.pure trivial

/-- An expression at the start of the text is an item. -/
theorem item_assignmentText {g : Inner} {rest : List Char} {holds : Expression → Prop}
    (hexpression : Reads (expression g) (assignmentText x cs) rest holds)
    (hend : Fails (symbol ";") rest) :
    Reads (item g) (assignmentText x cs) rest fun i =>
      ∃ e span, i = .statement ⟨.expression e, span⟩ ∧ holds e := by
  have hreturn : Fails (keyword "return") (assignmentText x cs) :=
    keyword_name x (by decide) (isNamePart_eq_false_at_gap oneBlank _)
  refine (item_of_node (undeclared_assignmentText x) (untyped_assignmentText x g)
    (statementNode_of_expression (undeclared_assignmentText x) hreturn
      (untyped_assignmentText x g) hexpression) hend).mono ?_
  rintro _ ⟨_, span, rfl, e, rfl, he⟩
  exact ⟨e, span, rfl, he⟩

/-- Nothing can be read at the sign. -/
theorem item_assignedValue (g : Inner) : Fails (item g) (assignedValue cs) := by
  have hbarren := barren_assignedValue cs
  have hname : Fails identifier (assignedValue cs) :=
    Fails.identifier hbarren.solid hbarren.noName
  have hundeclared : Undeclared (assignedValue cs) :=
    { annotation := symbol_operatorText (by decide) plainAssignment oneBlank cs
      block := symbol_operatorText (by decide) plainAssignment oneBlank cs
      keyword := fun _ _ _ => Fails.keyword hbarren.solid hbarren.noName }
  exact item_fails hundeclared (Fails.keyword hbarren.solid hbarren.noName)
    (.inl hname.bind.bind) (hbarren.expression g)
    (symbol_operatorText (by decide) plainAssignment oneBlank cs)

end Assignment

/-! ### Digits that are assigned -/

section Assigned

variable (x : Name) {ds : List Char}

theorem length_lt_assignmentText (ds : List Char) :
    x.chars.length + ds.length < (assignmentText x ds).length := by
  simp only [assignmentText, assignedValue, operatorText, oneBlank, Gap.chars, List.length_append,
    List.length_cons]
  omega

/-- The first piece of the digits is assigned. -/
theorem item_assigned {n m : Nat} {rest : List Char} (hn : x.chars.length ≤ n)
    (hds : Signless ds) (hrest : Signless rest)
    (hnumber : Reads number ds rest (· = .integer m)) :
    Reads (item (level (n + 1))) (assignmentText x ds) rest fun i =>
      ∃ s, i = .statement s ∧ Evaluates (assignment x (integerLiteral m)) s := by
  have hvalue : Reads (level (n + 1)).expression ds rest (·.Same (integerLiteral m)) :=
    hds.expression_of_literal hrest (literal_of_number hds hrest hnumber)
  refine (item_assignmentText x (expression_assigned x (Nat.le_succ_of_le hn) hds.solid hvalue)
    (hrest.symbol (by decide))).mono ?_
  rintro _ ⟨e, span, rfl, he⟩
  exact ⟨_, rfl, e, span, rfl, he⟩

/-- The statements of assigned digits are an assignment of the first piece, and all other pieces. -/
def AssignsRuns (x : Name) (ds : List Char) (statements : List Statement) : Prop :=
  ∃ run runs first rest, digitRuns ds = run :: runs ∧ statements = first :: rest ∧
    Evaluates (assignment x (integerLiteral (decimalValue run))) first ∧
    List.Forall₂ (fun run => Evaluates (integerLiteral (decimalValue run))) runs rest

theorem items_assigned {n : Nat} (hn : x.chars.length ≤ n) (hne : ds ≠ [])
    (hall : ∀ c ∈ ds, c.isDigit = true) (hle : decimalValue ds ≤ greatestInteger) :
    Repeats (item (level (n + 1))) (assignmentText x ds) [] fun items =>
      ∃ statements, items = statements.map Item.statement ∧ AssignsRuns x ds statements := by
  have hlength := length_lt_assignmentText x ds
  have hds := signless_digits hall
  obtain ⟨c, cs, rfl⟩ := List.exists_cons_of_ne_nil hne
  obtain ⟨-, htail⟩ := List.forall_mem_cons.mp hall
  by_cases hc : c = '0'
  · subst c
    refine Repeats.round (item_assigned x hn hds (signless_digits htail) (number_zero htail)) ?_
      (items_of_digits htail hle) ?_
    · rw [List.length_cons] at hlength
      omega
    · rintro _ _ ⟨first, rfl, hfirst⟩ ⟨rest, rfl, hrest⟩
      exact ⟨first :: rest, rfl, ['0'], digitRuns cs, first, rest, rfl, rfl, hfirst, hrest⟩
  · have hnumber := number_of_integerDigits (integerDigits_all hall hc)
      (noFraction (List.forall_mem_nil _)) hle
    refine Repeats.round (item_assigned x hn hds Signless.nil hnumber) (by simp; omega)
      (Repeats.stop (item_end _) rfl) ?_
    rintro _ _ ⟨first, rfl, hfirst⟩ rfl
    exact ⟨[first], rfl, c :: cs, [], first, [], if_neg hc, rfl, hfirst, .nil⟩

/-- Digits of too large a value stop the items before the end. -/
theorem items_assigned_stop {n : Nat} (hn : x.chars.length ≤ n)
    (hall : ∀ c ∈ ds, c.isDigit = true) (hlt : greatestInteger < decimalValue ds) :
    ∃ rest, rest ≠ [] ∧
      Repeats (item (level (n + 1))) (assignmentText x ds) rest fun _ => True := by
  have hlength := length_lt_assignmentText x ds
  have hds := signless_digits hall
  have hne : ds ≠ [] := by
    rintro rfl
    exact absurd hlt (by decide)
  obtain ⟨c, cs, rfl⟩ := List.exists_cons_of_ne_nil hne
  obtain ⟨-, htail⟩ := List.forall_mem_cons.mp hall
  by_cases hc : c = '0'
  · subst c
    obtain ⟨rest, hrest, hitems⟩ := items_stop (g := level (n + 1)) htail hlt
    refine ⟨rest, hrest, Repeats.round
      (item_assigned x hn hds (signless_digits htail) (number_zero htail)) ?_ hitems
      fun _ _ _ _ => trivial⟩
    rw [List.length_cons] at hlength
    omega
  · -- the name is a statement, and then nothing can be read
    have hnumber := number_too_large (integerDigits_all hall hc)
      (noFraction (List.forall_mem_nil _)) hlt
    have hfirst := item_assignmentText x (expression_unassigned x (Nat.le_succ_of_le hn) hds.solid
      (expression_fails_of_number hall hnumber (level n)))
      (symbol_operatorText (by decide) plainAssignment oneBlank (c :: cs))
    have hstop : Repeats (item (level (n + 1))) (assignedValue (c :: cs))
        (assignedValue (c :: cs)) fun _ => True := Repeats.stop (item_assignedValue _) trivial
    refine ⟨assignedValue (c :: cs), List.cons_ne_nil _ _, Repeats.round hfirst ?_ hstop
      fun _ _ _ _ => trivial⟩
    simp only [assignmentText, oneBlank, Gap.chars, List.length_append, List.length_cons]
    omega

theorem scriptOf_statements (statements : List Statement) :
    scriptOf (statements.map Item.statement) = ⟨statements, [], []⟩ := by
  induction statements with
  | nil => rfl
  | cons s statements ih =>
    show Item.addTo (scriptOf (statements.map Item.statement)) (.statement s) = _
    rw [ih]
    rfl

/-- Digits without a needless zero in front are one piece. -/
theorem digitRuns_of_canonical (hne : ds ≠ []) (h : ds = ['0'] ∨ ds.head? ≠ some '0') :
    digitRuns ds = [ds] := by
  obtain ⟨c, cs, rfl⟩ := List.exists_cons_of_ne_nil hne
  rcases h with hzero | hhead
  · rw [hzero]
    rfl
  · exact if_neg fun hc => hhead (congrArg some hc)

/-- What `x = digits` is read as, for all digits.  Without a needless zero in front they are one
statement, the assignment of their value.  In general each of their pieces makes a statement.  If
the value is too large, the source is refused. -/
theorem parse_assigned_digits (hne : ds ≠ []) (hall : ∀ c ∈ ds, c.isDigit = true) :
    (ds = ['0'] ∨ ds.head? ≠ some '0' → decimalValue ds ≤ greatestInteger → ∃ s,
      Script.parse (String.ofList (assignmentText x ds)) = .ok ⟨[s], [], []⟩ ∧
      Evaluates (assignment x (integerLiteral (decimalValue ds))) s) ∧
    (decimalValue ds ≤ greatestInteger → ∃ statements,
      Script.parse (String.ofList (assignmentText x ds)) = .ok ⟨statements, [], []⟩ ∧
      AssignsRuns x ds statements) ∧
    (greatestInteger < decimalValue ds → ∃ fault,
      Script.parse (String.ofList (assignmentText x ds)) = .error fault) := by
  have hn : x.chars.length ≤ (assignmentText x ds).length := by
    have := length_lt_assignmentText x ds
    omega
  have hruns (hle : decimalValue ds ≤ greatestInteger) : ∃ statements,
      Script.parse (String.ofList (assignmentText x ds)) = .ok ⟨statements, [], []⟩ ∧
      AssignsRuns x ds statements := by
    obtain ⟨_, hparse, _, rfl, statements, rfl, hassigns⟩ := parse_of_script
      (script_of_items (solid_name x _) (items_assigned x hn hne hall hle))
    rw [scriptOf_statements] at hparse
    exact ⟨statements, hparse, hassigns⟩
  refine ⟨fun hcanonical hle => ?_, hruns, fun hlt => ?_⟩
  · obtain ⟨_, hparse, run, runs, first, rest, hcut, rfl, hfirst, hrest⟩ := hruns hle
    rw [digitRuns_of_canonical hne hcanonical] at hcut
    obtain ⟨rfl, rfl⟩ := List.cons.inj hcut
    cases hrest
    exact ⟨first, hparse, hfirst⟩
  · obtain ⟨rest, hrest, hitems⟩ := items_assigned_stop x hn hall hlt
    exact parse_of_fails (script_fails (solid_name x _) hrest hitems)

end Assigned

/-- The name `x`. -/
def xName : Name := ⟨'x', [], by decide, List.forall_mem_nil _, by decide⟩

/-- The greatest value, the next one, and a value with zeros in front. -/
theorem parse_assigned_digits_limits :
    (∃ s, Script.parse "x = 9223372036854775807" = .ok ⟨[s], [], []⟩ ∧
      Evaluates (assignment xName (integerLiteral 9223372036854775807)) s) ∧
    (∃ fault, Script.parse "x = 9223372036854775808" = .error fault) ∧
    ∃ first second third, Script.parse "x = 007" = .ok ⟨[first, second, third], [], []⟩ ∧
      Evaluates (assignment xName (integerLiteral 0)) first ∧
      Evaluates (integerLiteral 0) second ∧ Evaluates (integerLiteral 7) third := by
  refine ⟨?_, ?_, ?_⟩
  · exact (@parse_assigned_digits xName "9223372036854775807".toList (by decide)
      (List.all_eq_true.mp (by decide))).1 (.inr (by decide)) (by decide)
  · exact (@parse_assigned_digits xName "9223372036854775808".toList (by decide)
      (List.all_eq_true.mp (by decide))).2.2 (by decide)
  · obtain ⟨_, hparse, run, runs, first, rest, hruns, rfl, hfirst, hrest⟩ :=
      (@parse_assigned_digits xName ['0', '0', '7'] (by decide)
        (List.all_eq_true.mp (by decide))).2.1 (by decide)
    rw [show digitRuns ['0', '0', '7'] = [['0'], ['0'], ['7']] from rfl] at hruns
    obtain ⟨rfl, rfl⟩ := List.cons.inj hruns
    rcases hrest with _ | ⟨hsecond, _ | ⟨hthird, ⟨⟩⟩⟩
    exact ⟨first, _, _, hparse, hfirst, hsecond, hthird⟩

/-- Digits with zeros in front are not one statement. -/
theorem parse_leadingZeros :
    Script.parse "x = 007" = .ok ⟨[
      ⟨.expression (.written (.binary (.written (.variableRef "x" none none) ⟨0, 2⟩) "="
        (.written (.constant (.integer 0)) ⟨4, 5⟩)) ⟨0, 5⟩), ⟨0, 5⟩⟩,
      ⟨.expression (.written (.constant (.integer 0)) ⟨5, 6⟩), ⟨5, 6⟩⟩,
      ⟨.expression (.written (.constant (.integer 7)) ⟨6, 7⟩), ⟨6, 7⟩⟩], [], []⟩ ∧
    decimalValue ['0', '0', '7'] = 7 := ⟨rfl, rfl⟩

end ScriptOutline.Grammar
