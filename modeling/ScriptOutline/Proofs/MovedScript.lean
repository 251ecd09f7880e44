/-
ScriptOutline/Proofs/MovedScript.lean

Members, classes and whole scripts, read at another place.  A script moves by moving every span
in it: those of its code, and those of declarations and annotations (`Script.moved`).

A declaration gets its span at the end of its rule, after all its parts.  Until then it has the
span of what was not written.
-/
import ScriptOutline.Proofs.MovedStatement
import ScriptOutline.Proofs.ScriptSpan

namespace ScriptOutline

/-! ### Declarations at another place -/

section

variable (k : Nat)

abbrev Parameter.moved (p : Parameter) : Parameter := p.revised (.moving k)

def Annotation.moved (a : Annotation) : Annotation :=
  { a with members := a.members.map fun m => (m.1, m.2.moved k), span := a.span.moved k }

def Constructor.moved (c : Constructor) : Constructor :=
  { c with
    parameters := c.parameters.map (Parameter.moved k)
    annotations := c.annotations.map (·.moved k)
    code := c.code.map (Statement.moved k)
    span := c.span.moved k }

def Method.moved (m : Method) : Method :=
  { m with
    parameters := m.parameters.map (Parameter.moved k)
    annotations := m.annotations.map (·.moved k)
    code := m.code.map (Statement.moved k)
    span := m.span.moved k }

def Field.moved (f : Field) : Field :=
  { f with
    annotations := f.annotations.map (·.moved k)
    initial := f.initial.map (Expression.moved k)
    span := f.span.moved k }

def Member.moved : Member → Member
  | .field f => .field (f.moved k)
  | .property f => .property (f.moved k)
  | .constructor name c => .constructor name (c.moved k)
  | .method m => .method (m.moved k)

def ClassDeclaration.moved (c : ClassDeclaration) : ClassDeclaration :=
  { c with
    annotations := c.annotations.map (·.moved k)
    members := c.members.map (Member.moved k)
    span := c.span.moved k }

/-- The same script at another place: all spans that were written are moved. -/
def Script.moved (s : Script) : Script where
  statements := s.statements.map (Statement.moved k)
  methods := s.methods.map (Method.moved k)
  classes := s.classes.map (ClassDeclaration.moved k)

end

namespace Grammar

open ScriptOutline.Grammar.Parser

variable {k n : Nat} {g g' : Inner}

/-! ### Modifiers and annotations -/

theorem moves_modifiers : Moves k n modifiers modifiers Eq := by
  refine (Moves.many_same (.firstOf ?_ ?_)).bind_same fun _ => .pure_same _
  · exact .keyword_pure _ _
  · exact .cons (.keyword_pure _ _) (.cons (.keyword_pure _ _) (.cons (.keyword_pure _ _)
      (.cons (.keyword_pure _ _) (.cons (.keyword_pure _ _) (.cons (.keyword_pure _ _) .nil)))))

theorem moves_annotationMember (h : Inner.Below k n g g') :
    Moves k n (annotationMember g) (annotationMember g') (PairMoves k) :=
  .orElse
    (moves_identifier.bind_same fun _ => (moves_symbol _).bind_same fun _ =>
      (moves_expression h).bind fun _ _ hvalue => .pure (.intro _ hvalue))
    ((moves_expression h).bind fun _ _ hvalue => .pure (.intro _ hvalue))

theorem moves_annotationUse (h : Inner.Below k n g g') :
    Moves k n (annotationUse g) (annotationUse g') fun a a' => a' = a.moved k := by
  refine .spanned_bind ((moves_symbol _).bind_same fun _ => (moves_classType h).bind_same
    fun type => ?_)
  refine (Moves.between rfl fun _ hm => (moves_annotationMember (h.of_le hm.le)).separated
    (moves_symbol _)).optional.bind ?_
  rintro members _ hmembers
  obtain rfl := eq_map_of_rel hmembers fun _ _ h => eq_map_of_forall₂ h fun _ _ h => h.1
  refine .pure fun span _ => .pure ?_
  cases members <;> rfl

/-- The annotations before a declaration. -/
theorem moves_annotations (h : Inner.Below k n g g') :
    Moves k n (many (annotationUse g)) (many (annotationUse g'))
      fun as as' => as' = as.map (·.moved k) :=
  (moves_annotationUse h).many.mapped

/-! ### Members -/

theorem moves_parameters (h : Inner.Below k n g g') :
    Moves k n (parameters g) (parameters g') fun ps ps' => ps' = ps.map (Parameter.moved k) :=
  .between rfl fun _ hm => ((moves_parameter (h.of_le hm.le)).separated (moves_symbol _)).mapped

/-- The code of a member. -/
theorem moves_code (h : Inner.Below k n g g') :
    Moves k n (block (statement g)) (block (statement g')) (Statement.MovesTo k) :=
  moves_block fun _ hm => moves_statement (h.of_le hm.le)

theorem moves_method (h : Inner.Below k n g g') :
    Moves k n (method g) (method g') fun m m' => m' = m.moved k := by
  refine .spanned_bind ((moves_annotations h).bind ?_)
  rintro annotations _ rfl
  refine moves_modifiers.bind_same fun modifiers => (moves_declaredType h).bind_same
    fun returnType => moves_identifier.bind_same fun name => (moves_parameters h).bind ?_
  rintro parameters _ rfl
  have hcode : Moves k n
      (orElse (some <$> block (statement g)) (do optionalSymbol ";"; pure none))
      (orElse (some <$> block (statement g')) (do optionalSymbol ";"; pure none))
      fun x y => y = x.map (Statement.moved k) :=
    .orElse (.map ((moves_code h).mono fun _ _ hcode => congrArg some hcode))
      ((moves_optionalSymbol _).bind_same fun _ => .pure rfl)
  refine hcode.bind ?_
  rintro code _ rfl
  exact .pure fun _ _ => .pure rfl

theorem moves_constructor (h : Inner.Below k n g g') :
    Moves k n (constructor g) (constructor g') fun m m' => m' = m.moved k := by
  refine .spanned_bind ((moves_annotations h).bind ?_)
  rintro annotations _ rfl
  refine moves_modifiers.bind_same fun modifiers => moves_identifier.bind_same fun name =>
    (moves_parameters h).bind ?_
  rintro parameters _ rfl
  exact (moves_code h).bind fun _ _ hcode => .pure fun _ _ => .pure (hcode ▸ rfl)

theorem moves_field (h : Inner.Below k n g g') :
    Moves k n (field g) (field g') fun m m' => m' = m.moved k := by
  refine .spanned_bind ((moves_annotations h).bind ?_)
  rintro annotations _ rfl
  refine moves_modifiers.bind_same fun modifiers => (moves_declaredType h).bind_same fun type =>
    moves_identifier.bind_same fun name => (moves_optionalExpression
      ((moves_symbol _).bind_same fun _ => moves_expression h)).bind ?_
  rintro initial _ rfl
  refine .pure fun _ _ => ?_
  dsimp only
  split
  · exact .pure rfl
  · exact .pure rfl

theorem moves_member (h : Inner.Below k n g g') :
    Moves k n (member g) (member g') fun m m' => m' = m.moved k := by
  have hmethod : Moves k n (Member.method <$> method g) (Member.method <$> method g')
      fun m m' => m' = m.moved k :=
    .map ((moves_method h).mono fun _ _ hm => congrArg Member.method hm)
  exact ((hmethod.orElse (moves_constructor h)).orElse (moves_field h)).bind fun _ _ hmember =>
    (moves_optionalSymbol _).bind_same fun _ => .pure hmember

/-! ### Classes and scripts -/

theorem moves_classDeclaration (h : Inner.Below k n g g') :
    Moves k n (classDeclaration g) (classDeclaration g') fun c c' => c' = c.moved k := by
  refine .spanned_bind ((moves_annotations h).bind ?_)
  rintro annotations _ rfl
  refine moves_modifiers.bind_same fun modifiers => (moves_keyword _).bind_same fun _ =>
    moves_identifier.bind_same fun name => ?_
  have htypes : Moves k n (separated1 (classType g) (symbol ",") .refused)
      (separated1 (classType g') (symbol ",") .refused) Eq :=
    ((moves_classType h).separated1 (moves_symbol _)).mono fun _ _ h => List.forall₂_eq_eq_eq ▸ h
  refine (Moves.optional_same ((moves_keyword _).bind_same fun _ => moves_classType h)).bind_same
    fun superClass => ?_
  refine (Moves.optional_same ((moves_keyword _).bind_same fun _ => htypes)).bind_same
    fun interfaces => ?_
  refine (Moves.between rfl fun m hm => (moves_member (h.of_le hm.le)).many.mapped).bind ?_
  rintro members _ rfl
  exact .pure fun _ _ => .pure rfl

/-- A piece of a script at another place. -/
def Item.moved (k : Nat) : Item → Item
  | .classDeclaration c => .classDeclaration (c.moved k)
  | .method m => .method (m.moved k)
  | .statement s => .statement (s.moved k)

theorem moves_item (h : Inner.Below k n g g') :
    Moves k n (item g) (item g') fun x y => y = x.moved k := by
  refine .orElse (.orElse (.map ?_) (.map ?_)) (.map ?_)
  · exact (moves_classDeclaration h).mono fun _ _ hc => congrArg Item.classDeclaration hc
  · exact (moves_method h).mono fun _ _ hm => congrArg Item.method hm
  · exact (moves_statement h).mono fun _ _ hs => congrArg Item.statement hs

theorem scriptOf_moved (items : List Item) :
    scriptOf (items.map (Item.moved k)) = (scriptOf items).moved k := by
  induction items with
  | nil => rfl
  | cons item items ih =>
    show (Item.moved k item).addTo (scriptOf (items.map (Item.moved k))) = _
    rw [ih]
    cases item <;> rfl

theorem moves_script (h : Inner.Below k n g g') :
    Moves k n (script g) (script g') fun s s' => s' = s.moved k := by
  refine moves_blanks.bind_same fun _ => (moves_item h).many.mapped.bind fun items _ hitems => ?_
  refine moves_endOfInput.bind_same fun _ => .pure ?_
  rw [hitems, scriptOf_moved]

end Grammar

end ScriptOutline
