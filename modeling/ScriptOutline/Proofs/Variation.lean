/-
ScriptOutline/Proofs/Variation.lean

Two ways to change code that the resolution of names hardly notices.  A variation puts braces
around bodies of branches and of loops with a condition, and puts other values in the place of the
default values of closure parameters (`Variation`).  All other code stays as it is.

Braces open a frame, so that they hide what is declared directly in them.  A variation fits a piece
of code if the bodies that get braces declare nothing around themselves (`Part.Fits`).  Then the
code still declares the same names around itself, has the same local variables and the same faults:
its parts are those that it had, up to braces (`Part.analysed_varied`), and for braces that fit
this makes no difference to what is collected from them (`Part.flatMap_varied`).  The default values
of closure parameters are no parts that are visited, and so any values will do.
-/
import ScriptOutline.Proofs.Analysis
import ScriptOutline.Proofs.TidyScript

namespace ScriptOutline

/-! ### Variations -/

/-- What is changed: the bodies that get braces, by the spans of the bodies, with the spans of the
blocks; the names noted in these blocks; and the default values of closure parameters. -/
structure Variation where
  braces : Span → Option Span := fun _ => none
  noted : Option (List String) := none
  value : Option Expression → Option Expression := id

/-- A body, in braces if it gets some. -/
def Variation.body (v : Variation) (s : Statement) : Statement :=
  match v.braces s.span with
  | some span => ⟨.block [s] v.noted, span⟩
  | none => s

/-- A parameter of a closure. -/
def Variation.parameter (v : Variation) (p : Parameter) : Parameter :=
  { p with defaultValue := v.value p.defaultValue }

section

variable (v : Variation)

mutual

def Expression.varied : Expression → Expression
  | ⟨node, span, inferred⟩ => ⟨node.varied, span, inferred⟩

def ExpressionNode.varied : ExpressionNode → ExpressionNode
  | .call object method arguments safe implicitReceiver =>
    .call object.varied method arguments.varied safe implicitReceiver
  | .staticCall owner method arguments => .staticCall owner method arguments.varied
  | .construct target arguments special => .construct target arguments.varied special
  | .binary left operation right => .binary left.varied operation right.varied
  | .declaration target value => .declaration target value.varied
  | .ternary condition whenTrue whenFalse =>
    .ternary condition.varied whenTrue.varied whenFalse.varied
  | .elvis condition value otherwise => .elvis condition.varied value.varied otherwise.varied
  | .step side operation operand => .step side operation operand.varied
  | .wrap wrapper operand => .wrap wrapper operand.varied
  | .closure parameters code => .closure (parameters.map (·.map v.parameter)) code.varied
  | .sequence form items => .sequence form (variedExpressions items)
  | .array elementType elements sizes =>
    .array elementType (variedExpressions elements) (variedExpressions sizes)
  | .mapEntry key value => .mapEntry key.varied value.varied
  | .range first last inclusive => .range first.varied last.varied inclusive
  | .methodPointer object method => .methodPointer object.varied method
  | .cast target operand coerce => .cast target operand.varied coerce
  | .constant value => .constant value
  | .classRef type => .classRef type
  | .variableRef name declared origin => .variableRef name declared origin
  | .access object name accessor => .access object.varied name accessor
  | .field name owner => .field name owner
  | .interpolation fragments values =>
    .interpolation (variedExpressions fragments) (variedExpressions values)
  | .bytecode instructions => .bytecode instructions
  | .empty => .empty

def variedExpressions : List Expression → List Expression
  | [] => []
  | e :: rest => e.varied :: variedExpressions rest

def Statement.varied : Statement → Statement
  | ⟨node, span⟩ => ⟨node.varied, span⟩

def StatementNode.varied : StatementNode → StatementNode
  | .block statements declared => .block (variedStatements statements) declared
  | .expression value => .expression value.varied
  | .ret value => .ret value.varied
  | .assertion condition message => .assertion condition.varied message.varied
  | .loop binding collection body => .loop binding collection.varied body.varied
  | .whileLoop condition body => .whileLoop condition.varied (v.body body.varied)
  | .doWhile body condition => .doWhile (v.body body.varied) condition.varied
  | .branch condition whenTrue whenFalse =>
    .branch condition.varied (v.body whenTrue.varied) (v.body whenFalse.varied)
  | .tryCatch body catches finallyBlock =>
    .tryCatch body.varied (variedCatches catches) finallyBlock.varied
  | .switch subject cases defaultBlock =>
    .switch subject.varied (variedCases cases) defaultBlock.varied
  | .breakLoop => .breakLoop
  | .continueLoop => .continueLoop
  | .synchronized lock code => .synchronized lock.varied code.varied
  | .throw value => .throw value.varied
  | .empty => .empty

def variedStatements : List Statement → List Statement
  | [] => []
  | s :: rest => s.varied :: variedStatements rest

def CatchClause.varied : CatchClause → CatchClause
  | ⟨binding, code, span⟩ => ⟨binding, code.varied, span⟩

def variedCatches : List CatchClause → List CatchClause
  | [] => []
  | c :: rest => c.varied :: variedCatches rest

def CaseClause.varied : CaseClause → CaseClause
  | ⟨subject, code, span⟩ => ⟨subject.varied, code.varied, span⟩

def variedCases : List CaseClause → List CaseClause
  | [] => []
  | c :: rest => c.varied :: variedCases rest

end

/-- The default value of a parameter of a member is code like any other. -/
def Parameter.varied (p : Parameter) : Parameter :=
  { p with defaultValue := p.defaultValue.map (·.varied v) }

def Field.varied (f : Field) : Field := { f with initial := f.initial.map (·.varied v) }

def Constructor.varied (c : Constructor) : Constructor :=
  { c with parameters := c.parameters.map (·.varied v), code := c.code.map (·.varied v) }

def Method.varied (m : Method) : Method :=
  { m with parameters := m.parameters.map (·.varied v), code := m.code.map (·.varied v) }

def CompiledClass.varied (c : CompiledClass) : CompiledClass :=
  { c with
    fields := c.fields.map (·.varied v)
    constructors := c.constructors.map (·.varied v)
    methods := c.methods.map (·.varied v) }

def CompiledModule.varied (m : CompiledModule) : CompiledModule :=
  { m with classes := m.classes.map (·.varied v) }

/-! ### Parts -/

def Part.varied : Part → Part
  | .expression e => .expression (e.varied v)
  | .statement s => .statement (s.varied v)
  | .catchClause c => .catchClause (c.varied v)
  | .caseClause c => .caseClause (c.varied v)

/-- The statements directly in the part are bodies, which can get braces. -/
def Part.takesBraces : Part → Bool
  | .statement ⟨.branch .., _⟩ => true
  | .statement ⟨.whileLoop .., _⟩ => true
  | .statement ⟨.doWhile .., _⟩ => true
  | _ => false

/-- A part of another part, in braces if it gets some there. -/
def Variation.within (p : Part) : Part → Part
  | .statement s => if p.takesBraces then .statement (v.body s) else .statement s
  | q => q

theorem variedExpressions_eq_map (es : List Expression) :
    variedExpressions v es = es.map (·.varied v) := by
  induction es with
  | nil => rfl
  | cons e es ih => rw [variedExpressions, List.map_cons, ih]

theorem variedStatements_eq_map (ss : List Statement) :
    variedStatements v ss = ss.map (·.varied v) := by
  induction ss with
  | nil => rfl
  | cons s ss ih => rw [variedStatements, List.map_cons, ih]

theorem variedCatches_eq_map (cs : List CatchClause) :
    variedCatches v cs = cs.map (·.varied v) := by
  induction cs with
  | nil => rfl
  | cons c cs ih => rw [variedCatches, List.map_cons, ih]

theorem variedCases_eq_map (cs : List CaseClause) :
    variedCases v cs = cs.map (·.varied v) := by
  induction cs with
  | nil => rfl
  | cons c cs ih => rw [variedCases, List.map_cons, ih]

theorem Variation.within_eq_self {p : Part} (h : p.takesBraces = false) (q : Part) :
    v.within p q = q := by
  cases q with
  | statement s => exact if_neg (ne_true_of_eq_false h)
  | _ => rfl

/-- The parts of code that is varied are the parts that it had, each one varied, and in braces if
it is a body that gets some. -/
theorem Part.analysed_varied (p : Part) :
    (p.varied v).analysed = p.analysed.map fun x => (x.1, v.within p (x.2.varied v)) := by
  have hkeep (h : p.takesBraces = false)
      (hparts : (p.varied v).analysed = p.analysed.map fun x => (x.1, x.2.varied v)) :
      (p.varied v).analysed = p.analysed.map fun x => (x.1, v.within p (x.2.varied v)) := by
    simpa only [v.within_eq_self h] using hparts
  rcases p with ⟨node, span, inferred⟩ | ⟨node, span⟩ | ⟨binding, code, span⟩ |
    ⟨subject, code, span⟩
  · refine hkeep rfl ?_
    cases node
    case sequence | array | interpolation =>
      simp [varied, Expression.varied, ExpressionNode.varied, analysed, ExpressionNode.analysed,
        ExpressionNode.children, variedExpressions_eq_map, Function.comp_def]
    all_goals rfl
  · cases node
    case block | tryCatch | switch =>
      refine hkeep rfl ?_
      simp [varied, Statement.varied, StatementNode.varied, analysed, StatementNode.analysed,
        StatementNode.children, variedStatements_eq_map, variedCatches_eq_map,
        variedCases_eq_map, Function.comp_def]
    case branch | whileLoop | doWhile => rfl
    all_goals exact hkeep rfl rfl
  · exact hkeep rfl rfl
  · exact hkeep rfl rfl

end

/-! ### Braces that fit -/

/-- The bodies that get braces declare nothing around themselves. -/
def Part.Fits (v : Variation) (p : Part) : Prop :=
  p.takesBraces = true → ∀ s : Statement, .statement s ∈ p.inner →
    (v.braces s.span).isSome = true → (Part.statement s).declares = []

section

variable {v : Variation} {γ : Type}

@[simp] theorem Statement.span_varied (s : Statement) : (s.varied v).span = s.span := by
  obtain ⟨node, span⟩ := s
  rfl

theorem Part.fits_of_takesBraces_eq_false {p : Part} (h : p.takesBraces = false) : p.Fits v :=
  fun htakes => absurd htakes (ne_true_of_eq_false h)

/-- A part stays in its place as it is, or it is a body that declares nothing and gets braces. -/
theorem Part.Fits.within {p : Part} (h : p.Fits v) {x : Option Enclosure × Part}
    (hx : x ∈ p.analysed) :
    v.within p (x.2.varied v) = x.2.varied v ∨
      ∃ s span, x.2 = .statement s ∧ (Part.statement s).declares = [] ∧
        v.within p (x.2.varied v) = .statement ⟨.block [s.varied v] v.noted, span⟩ := by
  cases hp : p.takesBraces with
  | false => exact .inl (v.within_eq_self hp _)
  | true =>
    have hmem := mem_inner_of_mem_analysed hx
    obtain ⟨enclosure, q⟩ := x
    cases q with
    | statement s =>
      cases hs : v.braces s.span with
      | none => exact .inl (by simp [Variation.within, varied, Variation.body, hp, hs])
      | some span =>
        refine .inr ⟨s, span, rfl, h hp s hmem (Option.isSome_of_eq_some hs), ?_⟩
        simp [Variation.within, varied, Variation.body, hp, hs]
    | _ => exact .inl rfl

/-- What is collected from the parts does not change, if it does not change for any of them and
braces make no difference to it. -/
theorem Part.Fits.flatMap_analysed {p : Part} (h : p.Fits v)
    (collect : Option Enclosure × Part → List γ)
    (hparts : ∀ x ∈ p.analysed, collect (x.1, x.2.varied v) = collect x)
    (hbraces : ∀ enclosure s span, (Part.statement s).declares = [] →
      collect (enclosure, .statement s) = collect (enclosure, .statement (s.varied v)) →
      collect (enclosure, .statement ⟨.block [s.varied v] v.noted, span⟩) =
        collect (enclosure, .statement s)) :
    (p.varied v).analysed.flatMap collect = p.analysed.flatMap collect := by
  rw [analysed_varied, List.flatMap_map]
  refine List.flatMap_congr fun x hx => ?_
  rcases h.within hx with heq | ⟨s, span, hs, hnone, heq⟩
  · rw [heq, hparts x hx]
  · obtain ⟨enclosure, q⟩ := x
    obtain rfl := hs
    rw [heq]
    exact hbraces enclosure s span hnone (hparts _ hx).symm

namespace Part

theorem hasFrame_varied (p : Part) : (p.varied v).hasFrame = p.hasFrame := by
  rcases p with ⟨node, span, inferred⟩ | ⟨node, span⟩ | c | c
  · cases node <;> rfl
  · cases node <;> rfl
  · rfl
  · rfl

theorem declared?_varied (p : Part) : (p.varied v).declared? = p.declared? := by
  rcases p with ⟨node, span, inferred⟩ | s | c | c
  · cases node <;> rfl
  all_goals rfl

theorem fault?_varied (p : Part) (declared : List String) (around : List Enclosure) :
    (p.varied v).fault? declared around = p.fault? declared around := by
  rcases p with ⟨node, span, inferred⟩ | ⟨node, span⟩ | c | c
  · cases node
    case construct target arguments special => cases special <;> rfl
    all_goals rfl
  · cases node <;> rfl
  · rfl
  · rfl

/-- The code declares the names around itself that it declared. -/
theorem declares_varied (p : Part) (h : (Piece.code p).Everywhere (Part.Fits v)) :
    (p.varied v).declares = p.declares := by
  rw [declares_eq, declares_eq, hasFrame_varied, declared?_varied,
    h.self.flatMap_analysed fun x => x.2.declares]
  · exact fun x hx => declares_varied x.2 (h.analysed hx)
  · intro enclosure s span hnone _
    rw [hnone, declares_eq]
    rfl
termination_by sizeOf p
decreasing_by exact sizeOf_lt_of_mem_analysed hx

theorem locals_block (s : Statement) (declared : Option (List String)) (span : Span) :
    (Part.statement ⟨.block [s] declared, span⟩).locals = (Part.statement s).locals := by
  rw [locals_eq (p := .statement ⟨.block [s] declared, span⟩) nofun]
  simp [analysed, StatementNode.analysed, StatementNode.children, declared?]

theorem locals_varied (p : Part) (h : (Piece.code p).Everywhere (Part.Fits v)) :
    (p.varied v).locals = p.locals := by
  have hparts : ∀ x ∈ p.analysed, (x.2.varied v).locals = x.2.locals :=
    fun x hx => locals_varied x.2 (h.analysed hx)
  have hsame (hp : ∀ b c s span, p ≠ .statement ⟨.loop (some b) c s, span⟩)
      (hp' : ∀ b c s span, p.varied v ≠ .statement ⟨.loop (some b) c s, span⟩) :
      (p.varied v).locals = p.locals := by
    rw [locals_eq hp, locals_eq hp', declared?_varied,
      h.self.flatMap_analysed (fun x => x.2.locals) hparts]
    intro enclosure s span _ hs
    rw [hs, locals_block]
  rcases p with e | ⟨node, span⟩ | c | c
  · exact hsame nofun nofun
  · cases node
    case loop binding collection body =>
      cases binding with
      | none => exact hsame nofun nofun
      | some binding =>
        have hcollection := hparts _ (.head _)
        have hbody := hparts _ (.tail _ (.head _))
        show (Part.statement ⟨.loop (some binding) (collection.varied v) (body.varied v), span⟩
          ).locals = _
        rw [locals_loop, locals_loop]
        exact congrArg₂ (fun xs ys => xs ++ binding.name :: ys) hcollection hbody
    all_goals exact hsame nofun nofun
  · exact hsame nofun nofun
  · exact hsame nofun nofun
termination_by sizeOf p
decreasing_by exact sizeOf_lt_of_mem_analysed hx

theorem faults_block (s : Statement) (names : Option (List String)) (span : Span)
    (declared : List String) (around : List Enclosure) :
    (Part.statement ⟨.block [s] names, span⟩).faults declared around =
      (Part.statement s).faults declared around := by
  rw [faults_eq]
  simp [analysed, StatementNode.analysed, StatementNode.children, fault?]

theorem faults_varied (p : Part) (h : (Piece.code p).Everywhere (Part.Fits v))
    (declared : List String) (around : List Enclosure) :
    (p.varied v).faults declared around = p.faults declared around := by
  rw [faults_eq, p.faults_eq, fault?_varied, h.self.flatMap_analysed
    fun x => x.2.faults declared (x.1.toList ++ around)]
  · exact fun x hx => faults_varied x.2 (h.analysed hx) declared _
  · intro enclosure s span _ hs
    rw [hs, faults_block]
termination_by sizeOf p
decreasing_by exact sizeOf_lt_of_mem_analysed hx

end Part

end

end ScriptOutline
