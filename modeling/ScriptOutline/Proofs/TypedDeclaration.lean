/-
ScriptOutline/Proofs/TypedDeclaration.lean

A type with a name behind it is a declaration.  A class type is names joined by dots, and behind
them the generic arguments in angle brackets, which are class types again.  The arguments are
read and not kept.  Reading them takes one level of nesting for each pair of brackets, so a type
is read with as many levels as it has characters (`WrittenType.reads`); nothing is read that looks
like `>>`, since every list of arguments takes its own closing bracket.

A declaration is tried behind classes, methods and all other statements but expressions.  The type
and the name are read as those of a method too, but there are no parameters behind them.

The main result is `parse_typedDeclaration`.
-/
import ScriptOutline.Proofs.ArrayType

namespace ScriptOutline.Grammar

open ScriptOutline.Grammar.Parser

/-! ### Types as they are written -/

/-- Blanks, possibly none. -/
structure Blanks where
  chars : List Char
  blank : ∀ c ∈ chars, isBlank c = true

/-- Names with dots between them. -/
structure DottedName where
  head : Name
  tail : List Name

mutual

/-- A class type, with its generic arguments if angle brackets stand behind its name. -/
inductive WrittenType where
  | plain (name : DottedName)
  | generic (name : DottedName) (arguments : WrittenArguments)

/-- Generic arguments, each one with blanks before and behind it. -/
inductive WrittenArguments where
  | none
  | cons (before : Blanks) (type : WrittenType) (behind : Blanks) (others : WrittenArguments)

end

/-- Further names, each one behind a dot. -/
def dotsText (names : List Name) : List Char := names.flatMap fun x => '.' :: x.chars

def DottedName.chars (name : DottedName) : List Char := name.head.chars ++ dotsText name.tail

def DottedName.text (name : DottedName) : String :=
  joinWith "." (name.head.text :: name.tail.map Name.text)

/-- The blanks before the first argument. -/
def WrittenArguments.leading : WrittenArguments → List Char
  | .none => []
  | .cons before _ _ _ => before.chars

/-- The comma before further arguments. -/
def WrittenArguments.comma : WrittenArguments → List Char
  | .none => []
  | .cons _ _ _ _ => [',']

mutual

def WrittenType.chars : WrittenType → List Char
  | .plain name => name.chars
  | .generic name arguments => name.chars ++ ('<' :: (arguments.leading ++ arguments.body ++ ['>']))

/-- The arguments without the blanks before the first one. -/
def WrittenArguments.body : WrittenArguments → List Char
  | .none => []
  | .cons _ type behind others =>
    type.chars ++ (behind.chars ++ (others.comma ++ (others.leading ++ others.body)))

end

/-- The name of a type, without its arguments. -/
def WrittenType.name : WrittenType → String
  | .plain name => name.text
  | .generic name _ => name.text

/-! ### Names -/

/-- A name, or a name with dots, ends here: blanks, and a text that cannot go on with it. -/
structure EndsName (gap rest : List Char) : Prop where
  blank : ∀ c ∈ gap, isBlank c = true
  solid : Solid rest
  part : ∀ d ∈ (gap ++ rest).head?, isNamePart d = false
  noDot : rest.head? ≠ some '.'

/-- What is left behind a name, up to the next one or up to the end. -/
def behindName (names : List Name) (gap rest : List Char) : List Char :=
  match names with
  | [] => rest
  | _ :: _ => dotsText names ++ (gap ++ rest)

theorem behindName_cons (x : Name) (names : List Name) (gap rest : List Char) :
    behindName (x :: names) gap rest = ['.'] ++ (x.chars ++ (dotsText names ++ (gap ++ rest))) := by
  simp [behindName, dotsText]

theorem length_behindName_le (names : List Name) (gap rest : List Char) :
    (behindName names gap rest).length ≤ (dotsText names ++ (gap ++ rest)).length := by
  cases names with
  | nil => simp [behindName, dotsText]
  | cons x names => exact Nat.le_refl _

namespace EndsName

variable {gap rest : List Char} (h : EndsName gap rest)
include h

theorem identifier (x : Name) (names : List Name) :
    Reads Grammar.identifier (x.chars ++ (dotsText names ++ (gap ++ rest)))
      (behindName names gap rest) (· = x.text) := by
  cases names with
  | nil => exact identifier_name x h.blank h.solid h.part
  | cons y names =>
    refine @identifier_name x [] _ (List.forall_mem_nil _) ?_ ?_
    · exact Solid.cons (by decide) (by decide)
    · rintro d ⟨⟩
      decide

theorem dots (names : List Name) :
    Repeats (do exactly ['.']; Grammar.identifier) (behindName names gap rest) rest
      (· = names.map Name.text) := by
  induction names with
  | nil =>
    have hdot : ¬ ['.'] <+: rest := by
      rintro ⟨tail, rfl⟩
      exact h.noDot rfl
    exact Repeats.stop (Fails.exactly hdot).bind rfl
  | cons x names ih =>
    rw [behindName_cons]
    refine Repeats.round ((Reads.exactly ['.'] _).bind fun _ _ => h.identifier x names) ?_ ih ?_
    · have := length_behindName_le names gap rest
      simp only [List.length_append, List.length_singleton] at this ⊢
      omega
    · rintro _ _ rfl rfl
      rfl

/-- A dotted name is read as a whole, and then generic arguments if there are any. -/
theorem classType {g : Inner} (name : DottedName) {last : List Char}
    (harguments : Reads (optional (between "<" (separated g.classType (symbol ",") .refused) ">"))
      rest last fun _ => True) :
    Reads (Grammar.classType g) (name.chars ++ (gap ++ rest)) last (· = .named name.text) := by
  rw [DottedName.chars, List.append_assoc]
  refine (h.identifier name.head name.tail).bind fun _ hhead => ?_
  refine (h.dots name.tail).many.bind fun _ htail => harguments.bind fun _ _ => Reads.pure ?_
  rw [hhead, htail, DottedName.text]

end EndsName

/-! ### Generic arguments -/

/-- A class type ends here, with or without arguments. -/
structure StopsType (gap rest : List Char) : Prop extends EndsName gap rest where
  noArguments : rest.head? ≠ some '<'

/-- Further arguments, with the closing bracket and what is behind it. -/
def WrittenArguments.remaining (arguments : WrittenArguments) (rest : List Char) : List Char :=
  arguments.comma ++ (arguments.leading ++ (arguments.body ++ ('>' :: rest)))

/-- An argument ends at a comma or at the closing bracket. -/
theorem WrittenArguments.stopsType (arguments : WrittenArguments) (behind : Blanks)
    (rest : List Char) : StopsType behind.chars (arguments.remaining rest) := by
  have hhead : ∀ c ∈ (arguments.remaining rest).head?, c ∈ [',', '>'] := by
    cases arguments <;> rintro c ⟨⟩ <;> decide
  refine ⟨⟨behind.blank, solid_of_heads hhead (by decide), ?_, ?_⟩, ?_⟩
  · intro d hd
    rw [List.head?_append] at hd
    cases hb : behind.chars with
    | nil =>
      rw [hb] at hd
      exact forall_of_heads hhead (by decide) d hd
    | cons c cs =>
      rw [hb] at hd
      cases hd
      exact isNamePart_eq_false_of_isBlank (behind.blank d (hb ▸ List.mem_cons_self))
  · intro hdot
    exact absurd (hhead '.' hdot) (by decide)
  · intro hangle
    exact absurd (hhead '<' hangle) (by decide)

theorem WrittenArguments.blank_leading (arguments : WrittenArguments) :
    ∀ c ∈ arguments.leading, isBlank c = true := by
  cases arguments with
  | none => exact List.forall_mem_nil _
  | cons before _ _ _ => exact before.blank

theorem WrittenType.solid (t : WrittenType) (cs : List Char) : Solid (t.chars ++ cs) := by
  cases t <;> rw [WrittenType.chars, DottedName.chars] <;> simp only [List.append_assoc] <;>
    exact solid_name _ _

theorem WrittenArguments.solid_body (arguments : WrittenArguments) (rest : List Char) :
    Solid (arguments.body ++ ('>' :: rest)) := by
  cases arguments with
  | none => exact Solid.cons (by decide) (by decide)
  | cons _ type _ _ =>
    rw [WrittenArguments.body, List.append_assoc]
    exact type.solid _

mutual

/-- A type is read up to its end, and its arguments are left out. -/
theorem WrittenType.reads (t : WrittenType) {n : Nat} (hn : t.chars.length ≤ n)
    {gap rest : List Char} (h : StopsType gap rest) :
    Reads (classType (level n)) (t.chars ++ (gap ++ rest)) rest (· = .named t.name) := by
  cases t with
  | plain name =>
    have hopen : Fails (symbol "<") rest := by
      refine Fails.symbol h.solid ?_
      rintro ⟨tail, rfl⟩
      exact h.noArguments rfl
    exact h.classType name ((Reads.optional_none hopen.bind).mono fun _ _ => trivial)
  | generic name arguments =>
    have hname : EndsName [] ('<' :: (arguments.leading ++ (arguments.body ++
        ('>' :: (gap ++ rest))))) :=
      ⟨List.forall_mem_nil _, Solid.cons (by decide) (by decide), by rintro d ⟨⟩; decide, by simp⟩
    -- a pair of brackets stands around the arguments, and takes a level of nesting
    have hbody : arguments.body.length < n := by
      simp only [WrittenType.chars, List.length_append, List.length_cons] at hn
      omega
    have hopen : Reads (symbol "<") ('<' :: (arguments.leading ++ (arguments.body ++
        ('>' :: (gap ++ rest))))) (arguments.body ++ ('>' :: (gap ++ rest))) fun _ => True :=
      Reads.symbol (s := "<") hname.solid arguments.blank_leading (arguments.solid_body _)
    have hclose : Reads (symbol ">") ('>' :: (gap ++ rest)) rest fun _ => True :=
      Reads.symbol (s := ">") (Solid.cons (by decide) (by decide)) h.blank h.solid
    have hbetween : Reads (between "<" (separated (level n).classType (symbol ",") .refused) ">")
        ('<' :: (arguments.leading ++ (arguments.body ++ ('>' :: (gap ++ rest))))) rest
        fun _ => True :=
      hopen.bind fun _ _ => (arguments.reads hbody (gap ++ rest)).1.bind fun _ _ =>
        hclose.bind fun _ _ => Reads.pure trivial
    have hreads := hname.classType (g := level n) name (hbetween.optional fun _ h => h)
    simpa [WrittenType.chars, WrittenType.name] using hreads

/-- Arguments are read up to the closing bracket, from the first one on, and also from a comma
on. -/
theorem WrittenArguments.reads (arguments : WrittenArguments) {n : Nat}
    (hn : arguments.body.length < n) (rest : List Char) :
    Reads (separated (level n).classType (symbol ",") .refused)
        (arguments.body ++ ('>' :: rest)) ('>' :: rest) (fun _ => True) ∧
      Repeats (do symbol ","; (level n).classType) (arguments.remaining rest) ('>' :: rest)
        (fun _ => True) := by
  cases arguments with
  | none =>
    -- neither a type nor a comma starts with the closing bracket
    have hsolid : Solid ('>' :: rest) := Solid.cons (by decide) (by decide)
    have hnothing : Fails (level n).classType ('>' :: rest) := by
      obtain ⟨m, rfl⟩ := Nat.exists_eq_add_of_lt hn
      exact (Fails.identifier hsolid (by rintro c ⟨⟩; decide)).bind
    have hcomma : Fails (symbol ",") ('>' :: rest) := Fails.symbol hsolid (by simp)
    exact ⟨(Reads.separated_none hnothing).mono fun _ _ => trivial,
      Repeats.stop hcomma.bind trivial⟩
  | cons before type behind others =>
    obtain ⟨m, rfl⟩ : ∃ m, n = m + 1 := Nat.exists_eq_add_one.mpr (Nat.zero_lt_of_lt hn)
    have hlength : type.chars.length ≤ m ∧ others.body.length < m + 1 := by
      simp only [WrittenArguments.body, List.length_append] at hn
      omega
    have htype : Reads (level (m + 1)).classType
        (type.chars ++ (behind.chars ++ others.remaining rest)) (others.remaining rest)
        fun _ => True :=
      (type.reads hlength.1 (others.stopsType behind rest)).mono fun _ _ => trivial
    have hothers := (others.reads hlength.2 rest).2
    have hcomma : Reads (symbol ",") (',' :: (before.chars ++ (type.chars ++
        (behind.chars ++ others.remaining rest))))
        (type.chars ++ (behind.chars ++ others.remaining rest)) fun _ => True :=
      Reads.symbol (s := ",") (Solid.cons (by decide) (by decide)) before.blank (type.solid _)
    -- the first argument is read as it is, and any later one as a round of the repetition
    constructor
    · have hseparated : Reads (separated (level (m + 1)).classType (symbol ",") .refused)
          (type.chars ++ (behind.chars ++ others.remaining rest)) ('>' :: rest) fun _ => True :=
        htype.separated hothers fun _ _ _ _ => trivial
      simpa [WrittenArguments.body, WrittenArguments.remaining] using hseparated
    · have hrounds : Repeats (do symbol ","; (level (m + 1)).classType)
          (',' :: (before.chars ++ (type.chars ++ (behind.chars ++ others.remaining rest))))
          ('>' :: rest) fun _ => True := by
        refine Repeats.round (hcomma.bind fun _ _ => htype) ?_ hothers fun _ _ _ _ => trivial
        simp only [List.length_cons, List.length_append]
        omega
      simpa [WrittenArguments.body, WrittenArguments.remaining, WrittenArguments.comma,
        WrittenArguments.leading] using hrounds

end

/-! ### Dimensions -/

/-- Pairs of brackets in front of a text. -/
def brackets : Nat → List Char → List Char
  | 0, cs => cs
  | d + 1, cs => '[' :: ']' :: brackets d cs

/-- The pairs of brackets as they are read, each one with the blanks behind it. -/
def bracketPairs (d : Nat) (gap : Gap) : List EmptyPair :=
  List.replicate d ⟨[], [], List.forall_mem_nil _, List.forall_mem_nil _⟩ ++
    [⟨[], gap.chars, List.forall_mem_nil _, gap.blank⟩]

theorem brackets_eq (d : Nat) (gap : Gap) (cs : List Char) :
    brackets (d + 1) (gap.chars ++ cs) = pairsText (bracketPairs d gap) ++ cs := by
  induction d with
  | zero => simp [brackets, bracketPairs, pairsText, EmptyPair.chars]
  | succ d ih =>
    rw [brackets, ih]
    simp [bracketPairs, List.replicate_succ, pairsText, EmptyPair.chars]

theorem Name.first_ne (x : Name) {c : Char} (hc : isNameStart c = false) : x.first ≠ c := by
  rintro rfl
  rw [x.start] at hc
  cases hc

section Name

variable (x : Name) (gap : Gap) (cs : List Char)

/-- A type ends in front of a gap and a name. -/
theorem stopsType_name : StopsType gap.chars (x.chars ++ cs) where
  blank := gap.blank
  solid := solid_name x cs
  part := isNamePart_eq_false_at_gap gap _
  noDot h := x.first_ne (c := '.') (by decide) (Option.some.inj h)
  noArguments h := x.first_ne (c := '<') (by decide) (Option.some.inj h)

theorem noDimension_name : NoDimension (x.chars ++ cs) where
  solid := solid_name x cs
  head h := x.first_ne (c := '[') (by decide) (Option.some.inj h)

theorem stopsType_brackets (d : Nat) : StopsType [] (brackets (d + 1) cs) where
  blank := List.forall_mem_nil _
  solid := solid_bracket _
  part := by rintro c ⟨⟩; decide
  noDot h := by cases h
  noArguments h := by cases h

end Name

/-- A type with its dimensions, up to a name behind a gap. -/
theorem WrittenType.readsTypeName (t : WrittenType) (d : Nat) (gap : Gap) (x : Name) {n : Nat}
    (hn : t.chars.length ≤ n) (cs : List Char) :
    Reads (typeName (level n)) (t.chars ++ brackets d (gap.chars ++ (x.chars ++ cs)))
      (x.chars ++ cs) (· = ⟨t.name, d, none⟩) := by
  cases d with
  | zero =>
    -- the gap is read with the type
    refine (t.reads hn (stopsType_name x gap cs)).bind fun type htype => ?_
    refine (Reads.many_none (noDimension_name x cs).symbol.bind).bind fun _ hnone => ?_
    rw [htype, hnone]
    exact Reads.pure rfl
  | succ d =>
    -- the gap is read with the last pair
    refine (t.reads hn (stopsType_brackets _ d)).bind fun type htype => ?_
    rw [brackets_eq]
    refine ((noDimension_name x cs).repeats (bracketPairs d gap)).many.bind fun xs hxs => ?_
    rw [htype, hxs]
    refine Reads.pure ?_
    simp [bracketPairs, TypeRef.withDimensions, TypeRef.named]

/-! ### Declarations -/

/-- A type and a name: `Map<String, Integer>[] x`. -/
def typedDeclaration (t : WrittenType) (d : Nat) (gap : Gap) (x : Name) : List Char :=
  t.chars ++ brackets d (gap.chars ++ x.chars)

/-- The expression declares the name with the type, and gives it no value. -/
def DeclaresTyped (type : TypeRef) (name : String) (e : Expression) : Prop :=
  ∃ span nameSpan, e = .written
    (.declaration (.written (.variableRef name (some type) none) nameSpan) .missing) span

theorem identifier_alone (x : Name) : Reads identifier x.chars [] (· = x.text) := by
  have h := @identifier_name x [] [] (List.forall_mem_nil _) Solid.nil (by simp)
  rwa [List.append_nil, List.append_nil] at h

section Declaration

variable (t : WrittenType) (d : Nat) (gap : Gap) (x : Name)

/-- No character of a name stands behind the first name of a type. -/
theorem isNamePart_eq_false_after_dots (names : List Name) {cs : List Char}
    (hcs : ∀ c ∈ cs.head?, isNamePart c = false) :
    ∀ c ∈ (dotsText names ++ cs).head?, isNamePart c = false := by
  cases names with
  | nil => exact hcs
  | cons y names =>
    rintro c ⟨⟩
    decide

theorem isNamePart_eq_false_at_brackets :
    ∀ c ∈ (brackets d (gap.chars ++ x.chars)).head?, isNamePart c = false := by
  cases d with
  | zero => exact isNamePart_eq_false_at_gap gap x.chars
  | succ d =>
    rintro c ⟨⟩
    decide

/-- It starts with a name that ends there. -/
theorem typedDeclaration_starts : ∃ (y : Name) (cs : List Char),
    typedDeclaration t d gap x = y.chars ++ cs ∧ ∀ c ∈ cs.head?, isNamePart c = false := by
  cases t with
  | plain name =>
    refine ⟨name.head, _, ?_,
      isNamePart_eq_false_after_dots name.tail (isNamePart_eq_false_at_brackets d gap x)⟩
    rw [typedDeclaration, WrittenType.chars, DottedName.chars, List.append_assoc]
  | generic name arguments =>
    have hopen : ∀ c ∈ ('<' :: (arguments.leading ++ arguments.body ++ ['>'] ++
        brackets d (gap.chars ++ x.chars))).head?, isNamePart c = false := by
      rintro c ⟨⟩
      decide
    refine ⟨name.head, _, ?_, isNamePart_eq_false_after_dots name.tail hopen⟩
    rw [typedDeclaration, WrittenType.chars, DottedName.chars, List.append_assoc,
      List.append_assoc, List.cons_append]

theorem undeclared_typedDeclaration : Undeclared (typedDeclaration t d gap x) := by
  obtain ⟨y, cs, heq, hend⟩ := typedDeclaration_starts t d gap x
  rw [heq]
  exact undeclared_name y hend

variable {t d gap x} {n : Nat} (hn : t.chars.length ≤ n)
include hn

theorem typeName_typedDeclaration :
    Reads (typeName (level n)) (typedDeclaration t d gap x) x.chars (· = ⟨t.name, d, none⟩) := by
  have h := t.readsTypeName d gap x hn []
  rwa [List.append_nil] at h

/-- It is no method, since no parameters stand behind the name. -/
theorem method_typedDeclaration : Fails (method (level n)) (typedDeclaration t d gap x) := by
  have hundeclared := undeclared_typedDeclaration t d gap x
  have hdef : Fails (keyword "def") (typedDeclaration t d gap x) :=
    hundeclared.word (by decide)
  refine (Fails.bind_after (hundeclared.annotations _) fun _ _ => ?_).spanned.bind
  refine Fails.bind_after hundeclared.modifiers fun _ _ => ?_
  refine Fails.bind_after ((typeName_typedDeclaration hn).orElse_right hdef.bind) fun _ _ => ?_
  exact Fails.bind_after (identifier_alone x) fun _ _ => (symbol_end (by decide)).bind.bind

theorem declaration_typedDeclaration :
    Reads (declaration (level n)) (typedDeclaration t d gap x) []
      (DeclaresTyped ⟨t.name, d, none⟩ x.text) := by
  have hundeclared := undeclared_typedDeclaration t d gap x
  have hdef : Fails (keyword "def") (typedDeclaration t d gap x) :=
    hundeclared.word (by decide)
  have hfinal : Fails (keyword "final") (typedDeclaration t d gap x) :=
    hundeclared.word (by decide)
  have htype : Reads (some <$> typeName (level n)) (typedDeclaration t d gap x) x.chars
      (· = some ⟨t.name, d, none⟩) :=
    (typeName_typedDeclaration hn).map fun _ h => congrArg some h
  have hdeclared : Reads
      (do
        let _ ← optional (keyword "final")
        let type ← orElse (do keyword "def"; pure none) (some <$> typeName (level n))
        let name ← spanned identifier
        let value ← optional (do symbol "="; expression (level n))
        pure (type, name, value))
      (typedDeclaration t d gap x) [] fun r =>
        r.1 = some ⟨t.name, d, none⟩ ∧ r.2.1.1 = x.text ∧ r.2.2 = none :=
    (Reads.optional_none hfinal).bind fun _ _ => (htype.orElse_right hdef.bind).bind
      fun _ ht => (identifier_alone x).spanned.bind fun _ hx =>
        (Reads.optional_none (symbol_end (by decide)).bind).bind fun _ hv =>
          Reads.pure ⟨ht, hx, hv⟩
  refine hdeclared.spanned.bind ?_
  rintro ⟨⟨type, ⟨name, nameSpan⟩, value⟩, span⟩ ⟨rfl, rfl, rfl⟩
  exact Reads.pure ⟨span, nameSpan, rfl⟩

/-- It is the last statement that is tried before expressions. -/
theorem script_typedDeclaration :
    Reads (script (level n)) (typedDeclaration t d gap x) [] fun script =>
      ∃ node span, script = ⟨[⟨node, span⟩], [], []⟩ ∧
        ∃ e, node = .expression e ∧ DeclaresTyped ⟨t.name, d, none⟩ x.text e := by
  have hundeclared := undeclared_typedDeclaration t d gap x
  obtain ⟨y, cs, heq, hend⟩ := typedDeclaration_starts t d gap x
  have hreturn : Fails (keyword "return") (typedDeclaration t d gap x) := by
    rw [heq]
    exact keyword_name y (by decide) hend
  have hsolid : Solid (typedDeclaration t d gap x) := by
    rw [heq]
    exact solid_name y cs
  have hne : typedDeclaration t d gap x ≠ [] := by
    rw [heq]
    exact List.cons_ne_nil _ _
  obtain ⟨hbranch, hbefore⟩ := hundeclared.beforeReturning (level n)
  have hmore : ∀ r ∈ [returning (level n), assertion (level n)],
      Fails r (typedDeclaration t d gap x) := by
    simp only [List.forall_mem_cons, List.not_mem_nil, false_implies, implies_true, and_true]
    exact ⟨hreturn.bind, (hundeclared.word (by decide)).bind⟩
  have hnode : Reads (statementNode (level n)) (typedDeclaration t d gap x) [] fun node =>
      ∃ e, node = .expression e ∧ DeclaresTyped ⟨t.name, d, none⟩ x.text e :=
    Reads.firstOf_tail hbranch (List.forall_mem_append.mpr ⟨hbefore, hmore⟩)
      ((declaration_typedDeclaration hn).map fun e he => ⟨e, rfl, he⟩)
      [StatementNode.expression <$> expression (level n)]
  exact script_of_item hsolid hne
    (item_of_noMethod hundeclared (method_typedDeclaration hn) hnode (symbol_end (by decide)))

end Declaration

/-- The text of a declaration without a value. -/
theorem DeclaresTyped.text {type : TypeRef} {name : String} {e : Expression}
    (h : DeclaresTyped type name e) : e.text = type.text ++ " " ++ name := by
  obtain ⟨span, nameSpan, rfl⟩ := h
  show type.text ++ " " ++ name ++ "" = _
  rw [String.append_empty]

/-- **A type and a name are a declaration.**  Whatever the type is, with generic arguments nested
to any depth and any number of dimensions, the source is one statement.  It declares the name
without a value, and its type has the dotted name and the dimensions and nothing of the
arguments. -/
theorem parse_typedDeclaration (t : WrittenType) (d : Nat) (gap : Gap) (x : Name) :
    ∃ e span, Script.parse (String.ofList (typedDeclaration t d gap x)) =
        .ok ⟨[⟨.expression e, span⟩], [], []⟩ ∧
      DeclaresTyped ⟨t.name, d, none⟩ x.text e ∧
      e.text = t.name ++ repeated "[]" d ++ " " ++ x.text := by
  have hn : t.chars.length ≤ (typedDeclaration t d gap x).length + 1 := by
    rw [typedDeclaration, List.length_append]
    omega
  obtain ⟨_, hparse, _, span, rfl, e, rfl, he⟩ := parse_of_script (script_typedDeclaration hn)
  exact ⟨e, span, hparse, he, he.text⟩

example :
    let x := Compilation.intName
    let tight : Blanks := ⟨[], List.forall_mem_nil _⟩
    String.ofList (typedDeclaration (.generic ⟨x, [x]⟩
      (.cons tight (.generic ⟨x, []⟩ .none) tight .none)) 1 oneBlank x) =
      "int.int<int<>>[] int" := by
  decide

end ScriptOutline.Grammar
