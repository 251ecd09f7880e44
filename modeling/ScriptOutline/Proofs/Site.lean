/-
ScriptOutline/Proofs/Site.lean

What the resolution of names visits, told without a visit.  `Part.analysed` lists the direct
parts of a piece of code that are visited, in the order of the visit, each with the construct
that it thereby enters.  From it follow, each by plain recursion:

* `Part.sites`: all code that is visited, each piece with the constructs around it;
* `Part.faults`: what is wrong with it, in the order in which it is met;
* `Part.declares`: the names that it adds to the frame it stands in;
* `Part.locals`: the local variables declared anywhere in it.

The last two differ in frames only: a block, a loop over a collection, a catch clause and a
closure keep the names declared in them to themselves.
-/
import ScriptOutline.Code.Walk
import ScriptOutline.Module.Failure
import ScriptOutline.Module.Scope
import ScriptOutline.Module.TypeTable

namespace ScriptOutline

/-! ### Analysed parts -/

/-- A construct that decides what a `break` or a `continue` inside it could leave. -/
inductive Enclosure where
  | loopBody
  | switch
  | closure
  deriving DecidableEq, Repr

/-- The direct parts of an expression that are visited, with the construct entered.  The
target of a declaration is not, and neither are the parameters of a closure. -/
def ExpressionNode.analysed : ExpressionNode → List (Option Enclosure × Part)
  | .declaration _ value => [(none, .expression value)]
  | .elvis condition value otherwise =>
    [(none, .expression condition), (none, .expression value), (none, .expression otherwise)]
  | .closure _ code => [(some .closure, .statement code)]
  | .interpolation fragments values =>
    (fragments ++ values).map fun e => (none, .expression e)
  | n => n.children.map fun q => (none, q)

/-- The direct parts of a statement that are visited, with the construct entered. -/
def StatementNode.analysed : StatementNode → List (Option Enclosure × Part)
  | .loop _ collection body =>
    [(none, .expression collection), (some .loopBody, .statement body)]
  | .whileLoop condition body =>
    [(none, .expression condition), (some .loopBody, .statement body)]
  | .doWhile body condition =>
    [(some .loopBody, .statement body), (none, .expression condition)]
  | .switch subject cases defaultBlock =>
    (StatementNode.switch subject cases defaultBlock).children.map fun q => (some .switch, q)
  | n => n.children.map fun q => (none, q)

/-- The direct parts that are visited, in the order of the visit, with the construct
entered. -/
def Part.analysed : Part → List (Option Enclosure × Part)
  | .expression e => e.node.analysed
  | .statement s => s.node.analysed
  | .catchClause c => [(none, .statement c.code)]
  | .caseClause c => [(none, .expression c.subject), (none, .statement c.code)]

theorem ExpressionNode.sizeOf_lt_of_mem_analysed (n : ExpressionNode) :
    ∀ x ∈ n.analysed, sizeOf x.2 < sizeOf n + 1 := by
  cases n
  case interpolation fragments values =>
    simp only [analysed, List.forall_mem_map, List.forall_mem_append]
    constructor <;> intro e he <;> have := List.sizeOf_lt_of_mem he <;>
      simp only [Part.expression.sizeOf_spec, ExpressionNode.interpolation.sizeOf_spec] <;> omega
  case declaration | elvis | closure => simp [analysed] <;> omega
  all_goals
    intro x hx
    obtain ⟨q, hq, rfl⟩ := List.mem_map.mp hx
    exact sizeOf_lt_of_mem_children _ q hq

theorem StatementNode.sizeOf_lt_of_mem_analysed (n : StatementNode) :
    ∀ x ∈ n.analysed, sizeOf x.2 < sizeOf n + 1 := by
  cases n
  case loop | whileLoop | doWhile => simp [analysed] <;> omega
  all_goals
    intro x hx
    obtain ⟨q, hq, rfl⟩ := List.mem_map.mp hx
    exact sizeOf_lt_of_mem_children _ q hq

theorem Part.sizeOf_lt_of_mem_analysed {p : Part} {x : Option Enclosure × Part}
    (h : x ∈ p.analysed) : sizeOf x.2 < sizeOf p := by
  rcases p with ⟨node, span, inferred⟩ | ⟨node, span⟩ | ⟨binding, code, span⟩ |
    ⟨subject, code, span⟩
  · have := node.sizeOf_lt_of_mem_analysed x h
    simp only [Part.expression.sizeOf_spec, Expression.mk.sizeOf_spec]
    omega
  · have := node.sizeOf_lt_of_mem_analysed x h
    simp only [Part.statement.sizeOf_spec, Statement.mk.sizeOf_spec]
    omega
  · simp only [analysed, List.mem_singleton] at h
    subst h
    simp; omega
  · simp only [analysed, List.mem_cons, List.not_mem_nil, or_false] at h
    rcases h with rfl | rfl <;> simp <;> omega

/-! ### Sites -/

/-- A piece of code with the constructs around it, the innermost one first. -/
abbrev Site := List Enclosure × Part

/-- A piece of code and all code in it that is visited, in the order of the visit. -/
def Part.sites (around : List Enclosure) (p : Part) : List Site :=
  (around, p) :: p.analysed.attach.flatMap fun ⟨x, _⟩ => x.2.sites (x.1.toList ++ around)
termination_by sizeOf p
decreasing_by exact Part.sizeOf_lt_of_mem_analysed ‹_›

theorem Part.sites_eq (around : List Enclosure) (p : Part) :
    p.sites around =
      (around, p) :: p.analysed.flatMap fun x => x.2.sites (x.1.toList ++ around) := by
  rw [Part.sites, List.flatMap_subtype (g := fun x => x.2.sites (x.1.toList ++ around))
    (fun _ _ => rfl), List.unattach_attach]

/-! ### Faults -/

/-- The name is neither that of a declared class, nor that of a built-in one, nor dotted. -/
def IsUnknownClass (declared : List String) (name : String) : Prop :=
  name ∉ declared ∧ name ∉ builtinTypes.map Prod.fst ∧ '.' ∉ name.toList

instance (declared : List String) (name : String) : Decidable (IsUnknownClass declared name) :=
  inferInstanceAs (Decidable (_ ∧ _ ∧ _))

/-- The fault of naming a type at a span, if its class is unknown. -/
def unknownClass? (declared : List String) (t : TypeRef) (span : Span) : Option Failure :=
  if IsUnknownClass declared t.name then some ⟨.unknownClass t.name, span⟩ else none

/-- The constructs up to the nearest closure: those that a `break` could leave. -/
def Enclosure.reach (around : List Enclosure) : List Enclosure :=
  around.takeWhile (· ≠ .closure)

/-- What is wrong with a piece of code on its own: a new object, a class, a cast or an array
of an unknown class, a `break` that is in no loop body and no switch, or a `continue` that is
in no loop body. -/
def Part.fault? (declared : List String) (around : List Enclosure) : Part → Option Failure
  | .expression ⟨.construct target _ none, span, _⟩ => unknownClass? declared target span
  | .expression ⟨.classRef type, span, _⟩ => unknownClass? declared type span
  | .expression ⟨.cast target _ _, span, _⟩ => unknownClass? declared target span
  | .expression ⟨.array elementType _ _, span, _⟩ => unknownClass? declared elementType span
  | .statement ⟨.breakLoop, span⟩ =>
    if Enclosure.loopBody ∉ Enclosure.reach around ∧
        Enclosure.switch ∉ Enclosure.reach around then
      some ⟨.strayBreak, span⟩
    else none
  | .statement ⟨.continueLoop, span⟩ =>
    if Enclosure.loopBody ∉ Enclosure.reach around then some ⟨.strayContinue, span⟩ else none
  | _ => none

/-- What is wrong at a site. -/
def Site.fault? (declared : List String) (x : Site) : Option Failure := x.2.fault? declared x.1

/-- What is wrong with a piece of code, in the order of the visit. -/
def Part.faults (declared : List String) (around : List Enclosure) (p : Part) : List Failure :=
  (p.sites around).filterMap (Site.fault? declared)

theorem Part.faults_eq (declared : List String) (around : List Enclosure) (p : Part) :
    p.faults declared around = (p.fault? declared around).toList ++
      p.analysed.flatMap fun x => x.2.faults declared (x.1.toList ++ around) := by
  rw [Part.faults, Part.sites_eq]
  cases h : Site.fault? declared (around, p) with
  | none =>
    have hp : p.fault? declared around = none := h
    rw [List.filterMap_cons_none h, List.filterMap_flatMap, hp]
    rfl
  | some fault =>
    have hp : p.fault? declared around = some fault := h
    rw [List.filterMap_cons_some h, List.filterMap_flatMap, hp]
    rfl

/-! ### Declarations -/

/-- The names in the code are declared in a frame of its own. -/
def Part.hasFrame : Part → Bool
  | .expression ⟨.closure _ _, _, _⟩ => true
  | .statement ⟨.block _ _, _⟩ => true
  | .statement ⟨.loop _ _ _, _⟩ => true
  | .catchClause _ => true
  | _ => false

/-- The name of an expression that is a variable. -/
def Expression.variableName? : Expression → Option String
  | ⟨.variableRef name _ _, _, _⟩ => some name
  | _ => none

/-- The variable that a declaration declares. -/
def Part.declared? : Part → Option String
  | .expression ⟨.declaration target _, _, _⟩ => target.variableName?
  | _ => none

/-- The names that a piece of code adds to the frame it stands in, in order: a declaration
adds its name after those of its value. -/
def Part.declares (p : Part) : List String :=
  if p.hasFrame then []
  else (p.analysed.attach.flatMap fun ⟨x, _⟩ => x.2.declares) ++ p.declared?.toList
termination_by sizeOf p
decreasing_by exact Part.sizeOf_lt_of_mem_analysed ‹_›

theorem Part.declares_eq (p : Part) :
    p.declares =
      if p.hasFrame then []
      else (p.analysed.flatMap fun x => x.2.declares) ++ p.declared?.toList := by
  rw [Part.declares, List.flatMap_subtype (g := fun x => x.2.declares) (fun _ _ => rfl),
    List.unattach_attach]

/-- All local variables declared in a piece of code, in order: a loop declares its variable
after those of its collection, a declaration its own after those of its value. -/
def Part.locals (p : Part) : List String :=
  match p with
  | .statement ⟨.loop (some binding) collection body, _⟩ =>
    (Part.expression collection).locals ++ binding.name :: (Part.statement body).locals
  | p => (p.analysed.attach.flatMap fun ⟨x, _⟩ => x.2.locals) ++ p.declared?.toList
termination_by sizeOf p
decreasing_by
  · simp; omega
  · simp; omega
  · exact Part.sizeOf_lt_of_mem_analysed ‹_›

theorem Part.locals_loop (binding : Binding) (collection : Expression) (body : Statement)
    (span : Span) :
    (Part.statement ⟨.loop (some binding) collection body, span⟩).locals =
      (Part.expression collection).locals ++ binding.name :: (Part.statement body).locals := by
  rw [Part.locals]

theorem Part.locals_eq {p : Part}
    (h : ∀ binding collection body span,
      p ≠ .statement ⟨.loop (some binding) collection body, span⟩) :
    p.locals = (p.analysed.flatMap fun x => x.2.locals) ++ p.declared?.toList := by
  rw [Part.locals, List.flatMap_subtype (g := fun x => x.2.locals) (fun _ _ => rfl),
    List.unattach_attach]
  exact h

end ScriptOutline
