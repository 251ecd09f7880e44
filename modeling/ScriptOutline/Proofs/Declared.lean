/-
ScriptOutline/Proofs/Declared.lean

How often a local variable is listed in the scope of its method.  `Part.written` tells the
declarations in the code, each as often as it is written, and beside each how often its code is
visited.  Almost all code is visited once.  But of a short conditional `a ?: b` the tested operand
is stored twice, and both copies are visited; and the default values of the parameters of a closure
are not visited at all.  With these numbers, the scope of a method lists its parameters and the
variables written in its own code, and nothing else (`CompiledModule.count_variableScope`).

The numbers are multiplied on the way down and added up on the way back: the step is
`Part.count_analysed`, which compares the parts that are visited with those that are written, and
the induction over the code is `Part.total_written`.
-/
import Mathlib.Algebra.BigOperators.Ring.List
import Mathlib.Algebra.Ring.Nat
import ScriptOutline.Proofs.Conservation
import ScriptOutline.Proofs.Everywhere
import ScriptOutline.Proofs.StaticCalls

namespace ScriptOutline

/-! ### Numbered declarations -/

/-- Names with numbers. -/
abbrev Declarations := List (String × Nat)

namespace Declarations

variable {name : String}

/-- The sum of the numbers of a name. -/
def total (name : String) (ds : Declarations) : Nat :=
  (ds.map fun d => if d.1 = name then d.2 else 0).sum

theorem total_append (ds es : Declarations) :
    (ds ++ es).total name = ds.total name + es.total name := by
  simp only [total, List.map_append, List.sum_append]

theorem total_flatMap {α : Type} (xs : List α) (f : α → Declarations) :
    Declarations.total name (xs.flatMap f) = (xs.map fun x => (f x).total name).sum := by
  induction xs with
  | nil => rfl
  | cons x xs ih => simp only [List.flatMap_cons, total_append, ih, List.map_cons, List.sum_cons]

theorem total_of_forall_eq_one {ds : Declarations} (h : ∀ d ∈ ds, d.2 = 1) :
    ds.total name = (ds.map Prod.fst).count name := by
  induction ds with
  | nil => rfl
  | cons d ds ih =>
    obtain ⟨hd, hds⟩ := List.forall_mem_cons.mp h
    rw [List.map_cons, List.count_cons, ← ih hds]
    simp [total, hd, Nat.add_comm]

end Declarations

/-! ### Declarations as they are written -/

/-- The variable that a part declares itself: by a declaration, or as the variable of a loop over
a collection. -/
def Part.introduced? : Part → Option String
  | .statement ⟨.loop binding _ _, _⟩ => binding.map Binding.name
  | p => p.declared?

/-- The direct parts in which something can be declared, each written one once, with the number of
times that its code is visited. -/
def Part.writtenParts : Part → List (Nat × Part)
  | .expression ⟨.elvis _ value otherwise, _, _⟩ =>
    [(2, .expression value), (1, .expression otherwise)]
  | .expression ⟨.closure parameters code, _, _⟩ =>
    (defaultValues (parameters.getD [])).map (fun e => (0, .expression e)) ++
      [(1, .statement code)]
  | p => p.analysed.map fun x => (1, x.2)

theorem Part.mem_inner_of_mem_writtenParts {p : Part} {x : Nat × Part} (h : x ∈ p.writtenParts) :
    x.2 ∈ p.inner := by
  have hanalysed (h : x ∈ p.analysed.map fun x => (1, x.2)) : x.2 ∈ p.inner := by
    obtain ⟨y, hy, rfl⟩ := List.mem_map.mp h
    exact mem_inner_of_mem_analysed hy
  rcases p with ⟨node, span, inferred⟩ | s | c | c
  · cases node
    case elvis condition value otherwise =>
      rcases List.mem_pair.mp h with rfl | rfl
      · exact .tail _ (.head _)
      · exact .tail _ (.tail _ (.head _))
    case closure parameters code =>
      rcases List.mem_append.mp h with h | h
      · obtain ⟨e, he, rfl⟩ := List.mem_map.mp h
        exact List.mem_append_left _ (List.mem_map_of_mem he)
      · obtain rfl := List.mem_singleton.mp h
        exact List.mem_append_right _ (.head _)
    all_goals exact hanalysed h
  all_goals exact hanalysed h

/-- All local variables written in the code, each one once, with the number of times that it is
met if the code is visited as often as given. -/
def Part.written (times : Nat) (p : Part) : Declarations :=
  p.introduced?.toList.map (·, times) ++
    p.writtenParts.attach.flatMap fun ⟨x, _⟩ => x.2.written (times * x.1)
termination_by sizeOf p
decreasing_by exact Part.sizeOf_lt_of_mem_inner (Part.mem_inner_of_mem_writtenParts ‹_›)

theorem Part.written_eq (times : Nat) (p : Part) :
    p.written times = p.introduced?.toList.map (·, times) ++
      p.writtenParts.flatMap fun x => x.2.written (times * x.1) := by
  rw [Part.written, List.flatMap_subtype (g := fun x => x.2.written (times * x.1))
    (fun _ _ => rfl), List.unattach_attach]

/-- What is written in the default values of the parameters of a method and in its body. -/
def Method.written (m : Method) : Declarations :=
  (memberCode m.parameters m.code).flatMap (Part.written 1)

/-! ### Visited and written code -/

namespace Part

/-- The local variables in a piece of code: its own, and those in the parts that are visited. -/
theorem count_locals (p : Part) (name : String) :
    p.locals.count name =
      p.introduced?.toList.count name + (p.analysed.map fun x => x.2.locals.count name).sum := by
  have heq (h : p.locals = (p.analysed.flatMap fun x => x.2.locals) ++ p.introduced?.toList) :
      p.locals.count name =
        p.introduced?.toList.count name + (p.analysed.map fun x => x.2.locals.count name).sum := by
    rw [h, List.count_append, List.count_flatMap, Nat.add_comm]
    rfl
  rcases p with e | ⟨node, span⟩ | c | c
  · exact heq (locals_eq nofun)
  · cases node
    case loop binding collection body =>
      cases binding with
      | none => exact heq (locals_eq nofun)
      | some binding =>
        have hown : List.count name [binding.name] = if binding.name == name then 1 else 0 :=
          List.count_singleton
        rw [locals_loop, List.count_append, List.count_cons, ← hown]
        show _ = List.count name [binding.name] +
          ((Part.expression collection).locals.count name +
            ((Part.statement body).locals.count name + 0))
        omega
    all_goals exact heq (locals_eq nofun)
  · exact heq (locals_eq nofun)
  · exact heq (locals_eq nofun)

/-- Of the parts that are visited, all but one copy of the operand of a short conditional are
written. -/
theorem count_analysed {p : Part} (h : p.Regular) (name : String) :
    (p.analysed.map fun x => x.2.locals.count name).sum =
      (p.writtenParts.map fun x => x.1 * x.2.locals.count name).sum := by
  have hsame : (p.analysed.map fun x => x.2.locals.count name).sum =
      ((p.analysed.map fun x => (1, x.2)).map fun x => x.1 * x.2.locals.count name).sum := by
    simp only [List.map_map, Function.comp_def, Nat.one_mul]
  rcases p with ⟨node, span, inferred⟩ | s | c | c
  · cases node
    case elvis condition value otherwise =>
      obtain ⟨⟨rfl, -⟩, -⟩ := h
      -- the condition declares what its operand does
      have hcondition : (Part.expression value.asCondition).locals.count name =
          (Part.expression value).locals.count name := by
        rw [count_locals]
        simp [introduced?, declared?, analysed, ExpressionNode.analysed, ExpressionNode.children,
          Expression.asCondition, Expression.written]
      simp only [analysed, ExpressionNode.analysed, writtenParts, List.map_cons, List.map_nil,
        List.sum_cons, List.sum_nil, hcondition]
      omega
    case closure parameters code =>
      simp [analysed, ExpressionNode.analysed, writtenParts, Function.comp_def]
    all_goals exact hsame
  all_goals exact hsame

/-- A variable is met as often as the numbers say. -/
theorem total_written (p : Part) (h : p.Tidy) (times : Nat) (name : String) :
    (p.written times).total name = times * p.locals.count name := by
  have hparts : ∀ x ∈ p.writtenParts, (x.2.written (times * x.1)).total name =
      times * (x.1 * x.2.locals.count name) := fun x hx => by
    have hx := h.inner (List.mem_map_of_mem (mem_inner_of_mem_writtenParts hx))
    rw [total_written x.2 hx, Nat.mul_assoc]
  rw [written_eq, Declarations.total_append, Declarations.total_flatMap,
    List.map_congr_left hparts, List.sum_map_mul_left, count_locals, count_analysed h.regular,
    Nat.mul_add]
  congr 1
  cases p.introduced? with
  | none => rfl
  | some x => simp [Declarations.total, List.count_singleton]
termination_by sizeOf p
decreasing_by exact Part.sizeOf_lt_of_mem_inner (Part.mem_inner_of_mem_writtenParts ‹_›)

end Part

/-! ### Scopes of methods -/

/-- The names in the scope of a method: its parameters, and the variables that are written in it as
often as their code is visited. -/
structure Method.Scopes (m : Method) (scope : List String) : Prop where
  count : ∀ name, scope.count name =
    (m.parameters.map Parameter.name).count name + m.written.total name
  once : (∀ d ∈ m.written, d.2 = 1) → ∀ name, scope.count name =
    (m.parameters.map Parameter.name).count name + (m.written.map Prod.fst).count name

theorem Method.scopes_bound {m : Method} (h : AllTidy (memberCode m.parameters m.code))
    (k : ClassContext) : ∃ scope, (m.bound k).variableScope = some scope ∧ m.Scopes scope := by
  have hcount : ∀ name, (m.parameters.map Parameter.name ++
      (memberCode m.parameters m.code).flatMap Part.locals).count name =
        (m.parameters.map Parameter.name).count name + m.written.total name := by
    intro name
    have hcode : ∀ p ∈ memberCode m.parameters m.code,
        (p.written 1).total name = p.locals.count name :=
      fun p hp => by rw [p.total_written (h p hp), Nat.one_mul]
    rw [List.count_append, written, Declarations.total_flatMap, List.map_congr_left hcode,
      List.count_flatMap]
    rfl
  refine ⟨_, rfl, hcount, fun hone name => ?_⟩
  rw [hcount, Declarations.total_of_forall_eq_one hone]

/-- In a source without faults, the scope of each method lists its parameters and the local
variables written in it, and a variable as often as its code is visited.  If all of it is visited
once, the scope lists what is written. -/
theorem CompiledModule.count_variableScope {source unitName : String} {s : Script}
    {m : CompiledModule} (hs : Script.parse source = .ok s) (hm : ofScript unitName s = .ok m)
    (hnone : m.resolve.2 = none) :
    List.Forall₂ (fun c d => List.Forall₂
        (fun x y => ∃ scope, y.variableScope = some scope ∧ Method.Scopes x scope)
        c.methods d.methods)
      m.classes m.resolve.1.classes := by
  have htidy := ofScript_tidy (Script.parse_tidy hs) hm
  rw [resolve_eq_map hnone, List.forall₂_map_right_iff, List.forall₂_same]
  intro c hc
  rw [CompiledClass.bound_eq, List.forall₂_map_right_iff, List.forall₂_same]
  exact fun x hx => Method.scopes_bound ((htidy c hc).method hx) _

/-- Variables of a loop, of an operand that is stored twice and of a default value that is not
visited, and a second method. -/
def fewScopes : String :=
  "class A \x7b def f(p) \x7b for (i in p) \x7b def x = i \x7d\n" ++
  "(\x7b def y = 1 \x7d) ?: 2\ndef c = \x7b a = \x7b def z = 1 \x7d -> a \x7d \x7d\n" ++
  "def g() \x7b def x = 1 \x7d \x7d"

theorem CompiledModule.count_variableScope_fewScopes :
    ∃ s m, Script.parse fewScopes = .ok s ∧ ofScript "Script1" s = .ok m ∧ m.resolve.2 = none ∧
      m.resolve.1.classes.map (fun c => c.methods.map Method.variableScope) =
        [[some ["p", "i", "x", "y", "y", "c"], some ["x"]]] ∧
      List.Forall₂ (fun c d => List.Forall₂
          (fun x y => ∃ scope, y.variableScope = some scope ∧ Method.Scopes x scope)
          c.methods d.methods)
        m.classes m.resolve.1.classes := by
  obtain ⟨s, m, hs, hm, hcheck⟩ := exists_of_modulePasses
    (fun m => m.resolve.2 = none ∧
      m.resolve.1.classes.map (fun c => c.methods.map Method.variableScope) =
        [[some ["p", "i", "x", "y", "y", "c"], some ["x"]]])
    fewScopes (by decide +kernel)
  obtain ⟨hnone, hscopes⟩ := of_decide_eq_true hcheck
  exact ⟨s, m, hs, hm, hnone, hscopes, count_variableScope hs hm hnone⟩

/-- A short conditional that tests a closure, in which a variable is declared. -/
def repeatedOperand : String := "class A \x7b def f() \x7b (\x7b def y = 1 \x7d) ?: 2 \x7d \x7d"

/-- The body of `repeatedOperand`. -/
def Statement.testsDeclaration : Statement → Bool
  | ⟨.block [⟨.expression ⟨.elvis _
      ⟨.closure none ⟨.block [⟨.expression ⟨.declaration ⟨.variableRef "y" _ _, _, _⟩
        ⟨.constant _, _, _⟩, _, _⟩, _⟩] _, _⟩, _, _⟩
      ⟨.constant _, _, _⟩, _, _⟩, _⟩] _, _⟩ => true
  | _ => false

theorem Statement.written_of_testsDeclaration {s : Statement} (h : s.testsDeclaration = true) :
    (Part.statement s).written 1 = [("y", 2)] := by
  rw [testsDeclaration.eq_def] at h
  split at h
  · -- one piece of code at a time, from the outside
    repeat
      rw [Part.written_eq]
      simp [Part.writtenParts, Part.introduced?, Part.declared?, Expression.variableName?,
        Part.analysed, ExpressionNode.analysed, StatementNode.analysed, ExpressionNode.children,
        StatementNode.children, defaultValues]
  · cases h

/-- The variable is written once and listed twice. -/
theorem CompiledModule.count_variableScope_repeatedOperand :
    ∃ s m, Script.parse repeatedOperand = .ok s ∧ ofScript "Script1" s = .ok m ∧
      m.resolve.2 = none ∧
      ¬ List.Forall₂ (fun c d => List.Forall₂
          (fun x y => ∃ scope, y.variableScope = some scope ∧ ∀ name, scope.count name =
            (x.parameters.map Parameter.name).count name + (x.written.map Prod.fst).count name)
          c.methods d.methods)
        m.classes m.resolve.1.classes := by
  obtain ⟨s, m, hs, hm, hcheck⟩ := exists_of_modulePasses
    (fun m => m.resolve.2 = none ∧ ∃ c ∈ m.classes, ∃ x ∈ c.methods,
      x.parameters.length = 0 ∧ ∃ code ∈ x.code, code.testsDeclaration = true)
    repeatedOperand (by decide +kernel)
  obtain ⟨hnone, c, hc, x, hx, hparameters, code, hcode, htests⟩ := of_decide_eq_true hcheck
  have hparameters := List.eq_nil_of_length_eq_zero hparameters
  have hwritten : x.written = [("y", 2)] := by
    rw [Method.written, hparameters, Option.mem_def.mp hcode]
    simpa [memberCode] using code.written_of_testsDeclaration htests
  have htidy := ofScript_tidy (Script.parse_tidy hs) hm
  refine ⟨s, m, hs, hm, hnone, fun h => ?_⟩
  rw [resolve_eq_map hnone, List.forall₂_map_right_iff, List.forall₂_same] at h
  have h := h c hc
  rw [CompiledClass.bound_eq, List.forall₂_map_right_iff, List.forall₂_same] at h
  obtain ⟨scope, hscope, hcount⟩ := h x hx
  obtain ⟨scope', hscope', hscopes⟩ :=
    Method.scopes_bound ((htidy c hc).method hx) (.of m.classNames c)
  obtain rfl := Option.some.inj (hscope.symm.trans hscope')
  -- the list has the variable twice, and the code declares it once
  have htwo := hscopes.count "y"
  have hone := hcount "y"
  simp [hwritten, hparameters, Declarations.total] at htwo hone
  omega

end ScriptOutline
