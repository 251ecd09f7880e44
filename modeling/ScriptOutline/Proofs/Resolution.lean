/-
ScriptOutline/Proofs/Resolution.lean

What a visit of the resolver does, for every piece of code.  The resolver works with one stack
of frames, counters for the loops and switches around it, and a place for the first fault; all
of it is shared by the members of a class.  The main results of this file say that

* the answer of a visit is the code bound in the environment that the stack was on entry
  (`Expression.resolve_run`, `Statement.resolve_run`);
* on exit the stack has the same frames, the innermost one with the names that the code
  declares; the counters are what they were; and a fault is kept only if it is the first one
  (`Progress.afterPart`).

That the counters agree with the constructs around the code is the invariant
(`Progress.StandsIn`).  The proof goes by recursion over the code, one case for every
constructor.
-/
import ScriptOutline.Proofs.Lexical

namespace ScriptOutline

open Visit

/-! ### Scopes -/

namespace Scope

theorem nearest?_cons (frame : Frame) (outer : Scope) (name : String) :
    nearest? (frame :: outer) name =
      ((frame.find? (·.1 == name)).map Prod.snd).or (nearest? outer name) := by
  by_cases h : frame.any (·.1 == name) = true
  · have hs : (frame.find? (·.1 == name)).isSome = true := by
      rw [List.find?_isSome]
      simpa using h
    obtain ⟨entry, he⟩ := Option.isSome_iff_exists.mp hs
    simp [nearest?, List.find?_cons_of_pos, h, he]
  · have hn : frame.find? (·.1 == name) = none := by
      rw [List.find?_eq_none]
      intro entry he hname
      exact h (List.any_eq_true.mpr ⟨entry, he, hname⟩)
    simp [nearest?, List.find?_cons_of_neg, h, hn]

theorem lookup_eq_find? (frame : Frame) (name : String) :
    frame.lookup name = (frame.find? (·.1 == name)).map Prod.snd := by
  induction frame with
  | nil => rfl
  | cons entry rest ih =>
    obtain ⟨declared, origin⟩ := entry
    by_cases h : name = declared
    · subst h
      simp
    · have hb : (name == declared) = false := beq_false_of_ne h
      have hb' : (declared == name) = false := beq_false_of_ne (Ne.symm h)
      rw [List.lookup_cons, hb, ih, List.find?_cons, hb']

/-- The search finds the most recent declaration in the innermost frame that has one. -/
theorem search_eq_nearest? (env : Scope) (name : String) :
    env.search name = env.nearest? name := by
  induction env with
  | nil => rfl
  | cons frame outer ih =>
    rw [nearest?_cons, ← ih, search, List.findSome?_cons, lookup_eq_find?]
    cases (frame.find? (·.1 == name)).map Prod.snd <;> rfl

/-- Declarations change nothing but the innermost frame. -/
theorem declareAll_cons (names : List String) (frame : Frame) (outer : Scope) :
    declareAll names (frame :: outer) =
      ((names.map fun name => (name, .localVariable)).reverse ++ frame) :: outer := by
  induction names generalizing frame with
  | nil => rfl
  | cons name rest ih =>
    show declareAll rest ((_ :: frame) :: outer) = _
    rw [ih, List.map_cons, List.reverse_cons, List.append_assoc]
    rfl

/-- Outside of all frames nothing is declared. -/
theorem declareAll_outside (names : List String) : declareAll names [] = [] := by
  induction names with
  | nil => rfl
  | cons name rest ih => exact ih

@[simp] theorem leave_declareAll_cons (names : List String) (frame : Frame) (outer : Scope) :
    (declareAll names (frame :: outer)).leave = outer := by
  rw [declareAll_cons]
  rfl

/-- A new frame receives exactly the names declared in it, in order. -/
@[simp] theorem innermostNames_declareAll_enter (names : List String) (outer : Scope) :
    (declareAll names outer.enter).innermostNames = names := by
  show ((declareAll names ([] :: outer)).innermostNames = names)
  rw [declareAll_cons, List.append_nil]
  show ((names.map fun name => (name, Origin.localVariable)).reverse.map Prod.fst).reverse = names
  rw [List.map_reverse, List.reverse_reverse, List.map_map]
  exact List.map_id names

end Scope

/-! ### The counters -/

/-- The counters are those of code with the given constructs around it. -/
def Progress.StandsIn (p : Progress) (around : List Enclosure) : Prop :=
  p.loopDepth = (Enclosure.reach around).count .loopBody ∧
    p.switchDepth = (Enclosure.reach around).count .switch

namespace Progress

theorem StandsIn.loop {p : Progress} {around : List Enclosure} (h : p.StandsIn around) :
    { p with loopDepth := p.loopDepth + 1 }.StandsIn (.loopBody :: around) := by
  obtain ⟨hl, hs⟩ := h
  constructor
  · simp [Enclosure.reach, hl]
  · simpa [Enclosure.reach] using hs

theorem StandsIn.switch {p : Progress} {around : List Enclosure} (h : p.StandsIn around) :
    { p with switchDepth := p.switchDepth + 1 }.StandsIn (.switch :: around) := by
  obtain ⟨hl, hs⟩ := h
  constructor
  · simpa [Enclosure.reach] using hl
  · simp [Enclosure.reach, hs]

theorem standsIn_closure (p : Progress) (around : List Enclosure) :
    { p with loopDepth := 0, switchDepth := 0 }.StandsIn (.closure :: around) := by
  constructor <;> simp [Enclosure.reach]

theorem StandsIn.loopDepth_eq_zero_iff {p : Progress} {around : List Enclosure}
    (h : p.StandsIn around) :
    p.loopDepth = 0 ↔ Enclosure.loopBody ∉ Enclosure.reach around := by
  rw [h.1, List.count_eq_zero]

theorem StandsIn.switchDepth_eq_zero_iff {p : Progress} {around : List Enclosure}
    (h : p.StandsIn around) :
    p.switchDepth = 0 ↔ Enclosure.switch ∉ Enclosure.reach around := by
  rw [h.2, List.count_eq_zero]

/-! ### What code leaves behind -/

/-- The state after code with the given declarations, local variables and faults. -/
def after (p : Progress) (declares locals : List String) (faults : List Failure) : Progress :=
  { p with
    scope := p.scope.declareAll declares
    locals := locals.reverse ++ p.locals
    failure := p.failure.or faults.head? }

@[simp] theorem after_nil (p : Progress) : p.after [] [] [] = p := by
  simp [after]

theorem after_after (p : Progress) (d d' l l' : List String) (f f' : List Failure) :
    (p.after d l f).after d' l' f' = p.after (d ++ d') (l ++ l') (f ++ f') := by
  simp only [after, Scope.declareAll_append, List.reverse_append, List.append_assoc,
    List.head?_append, Option.or_assoc]

theorem StandsIn.after {p : Progress} {around : List Enclosure} (h : p.StandsIn around)
    {d l : List String} {f : List Failure} : (p.after d l f).StandsIn around := h

/-- The state with the innermost frame closed. -/
def closeFrame (p : Progress) : Progress := { p with scope := p.scope.leave }

/-- What code declares in a frame goes with it. -/
theorem closeFrame_after (p : Progress) (frame : Frame) (d l : List String)
    (f : List Failure) :
    ({ p with scope := frame :: p.scope }.after d l f).closeFrame = p.after [] l f := by
  simp [after, closeFrame]

/-- The state after a piece of code. -/
abbrev afterPart (p : Progress) (declared : List String) (around : List Enclosure) (q : Part) :
    Progress :=
  p.after q.declares q.locals (q.faults declared around)

/-- The state after several pieces of code, each in a construct or not. -/
def afterParts (p : Progress) (declared : List String) (around : List Enclosure)
    (xs : List (Option Enclosure × Part)) : Progress :=
  xs.foldl (fun p x => p.afterPart declared (x.1.toList ++ around) x.2) p

variable (p : Progress) (declared : List String) (around : List Enclosure)

theorem afterParts_append (xs ys : List (Option Enclosure × Part)) :
    p.afterParts declared around (xs ++ ys) =
      (p.afterParts declared around xs).afterParts declared around ys := List.foldl_append

theorem afterParts_enclosed (x : Enclosure) (qs : List Part) :
    p.afterParts declared around (qs.map fun q => (some x, q)) =
      p.afterParts declared (x :: around) (qs.map fun q => (none, q)) := by
  rw [afterParts, afterParts, List.foldl_map, List.foldl_map]
  rfl

/-- Code one after the other leaves behind everything in order. -/
theorem afterParts_eq (xs : List (Option Enclosure × Part)) :
    p.afterParts declared around xs =
      p.after (xs.flatMap (·.2.declares)) (xs.flatMap (·.2.locals))
        (xs.flatMap fun x => x.2.faults declared (x.1.toList ++ around)) := by
  induction xs generalizing p with
  | nil => exact p.after_nil.symm
  | cons x rest ih =>
    show (p.afterPart declared (x.1.toList ++ around) x.2).afterParts declared around rest = _
    rw [ih, after_after]
    rfl

theorem StandsIn.afterParts {p : Progress} {around : List Enclosure} (h : p.StandsIn around)
    {declared : List String} {xs : List (Option Enclosure × Part)} :
    (p.afterParts declared around xs).StandsIn around := by
  rw [afterParts_eq]
  exact h

theorem inStatic_afterParts (xs : List (Option Enclosure × Part)) :
    (p.afterParts declared around xs).inStatic = p.inStatic := by
  rw [afterParts_eq]
  rfl

theorem scope_afterParts_map {α : Type} (part : α → Part) (xs : List α) :
    (p.afterParts declared around (xs.map fun x => (none, part x))).scope =
      p.scope.declareAll (xs.flatMap fun x => (part x).declares) := by
  rw [afterParts_eq, List.flatMap_map]
  rfl

/-- Code without a frame of its own leaves behind its own fault, what its parts leave behind,
and the variable that it declares. -/
theorem afterPart_eq {q : Part} (hframe : q.hasFrame = false) :
    p.afterPart declared around q =
      ((p.after [] [] (q.fault? declared around).toList).afterParts declared around
        q.analysed).after q.declared?.toList q.declared?.toList [] := by
  have hl : q.locals = (q.analysed.flatMap fun x => x.2.locals) ++ q.declared?.toList := by
    refine Part.locals_eq fun binding collection body span he => ?_
    subst he
    cases hframe
  rw [afterPart, afterParts_eq, after_after, after_after, q.faults_eq, q.declares_eq, hl,
    hframe]
  simp

/-- Code that names a class leaves behind a fault of its own, then what its parts do. -/
theorem afterPart_own {q : Part} (hframe : q.hasFrame = false) (hdeclared : q.declared? = none) :
    p.afterPart declared around q =
      (p.after [] [] (q.fault? declared around).toList).afterParts declared around
        q.analysed := by
  rw [p.afterPart_eq declared around hframe, hdeclared]
  exact after_nil _

/-- Code that only has parts leaves behind what they do. -/
theorem afterPart_parts {q : Part} (hframe : q.hasFrame = false)
    (hdeclared : q.declared? = none) (hfault : q.fault? declared around = none) :
    p.afterPart declared around q = p.afterParts declared around q.analysed := by
  rw [p.afterPart_own declared around hframe hdeclared, hfault]
  exact congrArg (afterParts · declared around q.analysed) p.after_nil

/-- A frame keeps the declarations in it to itself. -/
theorem afterPart_frame {q : Part} (hframe : q.hasFrame = true) :
    p.afterPart declared around q = p.after [] q.locals (q.faults declared around) := by
  rw [afterPart, q.declares_eq, if_pos hframe]

/-- Code with a frame leaves behind what its parts do, without the declarations. -/
theorem afterPart_framed (frame : Frame) {q : Part} (hframe : q.hasFrame = true)
    (hdeclared : q.declared? = none) (hfault : q.fault? declared around = none)
    (hloop : ∀ binding collection body span,
      q ≠ .statement ⟨.loop (some binding) collection body, span⟩) :
    p.afterPart declared around q =
      ({ p with scope := frame :: p.scope }.afterParts declared around q.analysed).closeFrame := by
  rw [afterPart, q.declares_eq, if_pos hframe, Part.locals_eq hloop, q.faults_eq, hdeclared,
    hfault, Option.toList_none, List.append_nil, afterParts_eq, closeFrame_after]
  rfl

/-- The variable of a loop is declared in the frame of the loop, after the collection. -/
theorem afterPart_loop (binding : Option Binding) (collection : Expression) (body : Statement)
    (span : Span) :
    p.afterPart declared around (.statement ⟨.loop binding collection body, span⟩) =
      ((({ p with scope := p.scope.enter }.afterPart declared around
          (.expression collection)).after (binding.map Binding.name).toList
          (binding.map Binding.name).toList []).afterPart declared (.loopBody :: around)
          (.statement body)).closeFrame := by
  cases binding with
  | none =>
    rw [p.afterPart_framed declared around [] rfl rfl rfl (by intros; simp)]
    exact congrArg (fun q : Progress =>
      (q.afterPart declared (.loopBody :: around) (.statement body)).closeFrame)
      (after_nil _).symm
  | some binding =>
    rw [afterPart, Part.declares_eq, Part.locals_loop, Part.faults_eq, after_after, afterPart,
      after_after]
    refine ((closeFrame_after p [] _ _ _).trans ?_).symm
    simp [Part.hasFrame, Part.fault?, Part.analysed, StatementNode.analysed]

end Progress

/-! ### Single steps -/

namespace Visit

variable {α β : Type}

theorem run_pure (x : α) (p : Progress) : (pure x : Visit α).run p = (x, p) := rfl

/-- A visit that only answers leaves nothing behind. -/
theorem run_pure_after (x : α) (p : Progress) :
    (pure x : Visit α).run p = (x, p.after [] [] []) := by
  rw [run_pure, Progress.after_nil]

theorem run_bind (v : Visit α) (f : α → Visit β) (p : Progress) :
    (v >>= f).run p = (f (v.run p).1).run (v.run p).2 := rfl

theorem run_map (f : α → β) (v : Visit α) (p : Progress) :
    (f <$> v).run p = (f (v.run p).1, (v.run p).2) := rfl

theorem run_get (p : Progress) : (get : Visit Progress).run p = (p, p) := rfl

theorem run_modify (f : Progress → Progress) (p : Progress) :
    (modify f : Visit Unit).run p = ((), f p) := rfl

theorem run_enter (p : Progress) : enter.run p = ((), { p with scope := p.scope.enter }) := rfl

theorem run_leave (p : Progress) :
    leave.run p = (p.scope.innermostNames, p.closeFrame) := rfl

theorem run_declare (name : String) (origin : Origin) (p : Progress) :
    (declare name origin).run p = ((), { p with scope := p.scope.declare name origin }) := rfl

/-- A local variable is one more name in the frame and one more for the member. -/
theorem run_declareLocal (name : String) (p : Progress) :
    (declareLocal name).run p = ((), p.after [name] [name] []) := by
  simp [declareLocal, run_declare, Progress.after, Scope.declareAll]
  rfl

theorem run_report (cause : Cause) (span : Span) (p : Progress) :
    (report cause span).run p = ((), p.after [] [] [⟨cause, span⟩]) := rfl

/-- A type name resolves to nothing exactly if its class is unknown. -/
theorem resolveName_eq_none_iff (declared : List String) (name : String) :
    resolveName declared name = none ↔ IsUnknownClass declared name := by
  have hb : builtinTypes.lookup name = none ↔ name ∉ builtinTypes.map Prod.fst := by
    rw [List.lookup_eq_none_iff]
    simp only [List.mem_map, not_exists, not_and, bne_iff_ne, ne_eq]
    exact ⟨fun h x hx he => h x hx he.symm, fun h x hx he => h x hx he.symm⟩
  rw [IsUnknownClass, ← hb, resolveName, isDotted]
  by_cases hd : name ∈ declared
  · simp [hd]
  · cases builtinTypes.lookup name with
    | some builtin => simp [hd]
    | none => by_cases hdot : '.' ∈ name.toList <;> simp [hd, hdot]

theorem run_require (declared : List String) (t : TypeRef) (span : Span) (p : Progress) :
    (require declared t span).run p =
      (t.resolve declared, p.after [] [] (unknownClass? declared t span).toList) := by
  by_cases h : IsUnknownClass declared t.name
  · have hn : (t.resolve declared).resolved.isNone = true := by
      rw [TypeRef.resolve, (resolveName_eq_none_iff declared t.name).mpr h]
      rfl
    rw [unknownClass?, if_pos h, require]
    simp only [hn, if_true, run_bind, run_report, run_pure]
    rfl
  · have hn : (t.resolve declared).resolved.isNone = false := by
      rw [Option.isNone_eq_false_iff, ← Option.ne_none_iff_isSome]
      exact fun he => h ((resolveName_eq_none_iff declared t.name).mp he)
    rw [unknownClass?, if_neg h, require]
    simp only [hn, Bool.false_eq_true, if_false, Option.toList_none, Progress.after_nil]
    rfl

theorem run_originOf (k : ClassContext) (name : String) (p : Progress) :
    (originOf k name).run p = (k.originIn p.scope name, p) := by
  rw [originOf, ClassContext.originIn]
  by_cases h : name = "this" ∨ name = "super"
  · rw [if_pos h, if_pos h]
    rfl
  · -- a name that is in no frame is one of the class, or of no one
    rw [if_neg h, if_neg h, run_bind, run_get, Scope.search_eq_nearest?]
    cases p.scope.nearest? name with
    | some origin => rfl
    | none =>
      by_cases hf : name ∈ k.fields <;> by_cases hp : name ∈ k.properties <;>
        simp [hf, hp] <;> rfl

theorem run_resolveTarget (k : ClassContext) (target : TypeRef) (special : Option SpecialCall)
    (arguments : Expression) (span : Span) (inferred : Option String) (around : List Enclosure)
    (p : Progress) :
    (resolveTarget k target special span).run p =
      (boundTarget k target special,
        p.after [] []
          ((Part.expression ⟨.construct target arguments special, span, inferred⟩).fault?
            k.declared around).toList) := by
  rcases special with _ | _ | _
  · exact run_require k.declared target span p
  · exact run_pure_after _ p
  · exact run_pure_after _ p

/-- Inside a loop body, a switch or a closure only the counters differ, and they are put back
on the way out. -/
theorem run_inLoop {v : Visit α} {p : Progress} {x : α} {d l : List String} {f : List Failure}
    (h : v.run { p with loopDepth := p.loopDepth + 1 } =
      (x, { p with loopDepth := p.loopDepth + 1 }.after d l f)) :
    (inLoop v).run p = (x, p.after d l f) := by
  rw [inLoop, run_bind, run_modify, run_bind, h]
  rfl

theorem run_inSwitch {v : Visit α} {p : Progress} {x : α} {d l : List String}
    {f : List Failure}
    (h : v.run { p with switchDepth := p.switchDepth + 1 } =
      (x, { p with switchDepth := p.switchDepth + 1 }.after d l f)) :
    (inSwitch v).run p = (x, p.after d l f) := by
  rw [inSwitch, run_bind, run_modify, run_bind, h]
  rfl

theorem run_inClosure {v : Visit α} {p : Progress} {x : α} {d l : List String}
    {f : List Failure}
    (h : v.run { p with loopDepth := 0, switchDepth := 0 } =
      (x, { p with loopDepth := 0, switchDepth := 0 }.after d l f)) :
    (inClosure v).run p = (x, p.after d l f) := by
  rw [inClosure, run_bind, run_get, run_bind, run_modify, run_bind, h]
  rfl

theorem run_resolveClosureParameters (k : ClassContext) (outer : Scope) :
    ∀ (ps : List Parameter) (frame : Frame) (p : Progress),
      (resolveClosureParameters k ps).run { p with scope := frame :: outer } =
        (boundClosureParameters k ps,
          { p with scope := ((ps.map fun x => (x.name, .parameter)).reverse ++ frame) :: outer })
  | [], _, _ => rfl
  | x :: rest, frame, p => by
    rw [resolveClosureParameters, run_bind, run_declare]
    have ih := run_resolveClosureParameters k outer rest ((x.name, .parameter) :: frame) p
    rw [List.map_cons, List.reverse_cons, List.append_assoc]
    exact congrArg (fun r => (_ :: r.1, r.2)) ih

/-- The frame of a closure holds its parameters, or the implicit one. -/
theorem run_resolveClosureHead (k : ClassContext) (ps : Option (List Parameter))
    (p : Progress) :
    (resolveClosureHead k ps).run { p with scope := p.scope.enter } =
      (ps.map (boundClosureParameters k), { p with scope := closureFrame ps :: p.scope }) := by
  cases ps with
  | none => rfl
  | some ps =>
    have h := run_resolveClosureParameters k p.scope ps [] p
    rw [List.append_nil] at h
    rw [resolveClosureHead, run_map]
    exact congrArg (fun r => (some r.1, r.2)) h

theorem run_resolveDeclared (k : ClassContext) (target : Expression) (p : Progress) :
    (resolveDeclared k target).run p =
      (boundDeclared k target,
        p.after target.variableName?.toList target.variableName?.toList []) := by
  obtain ⟨node, span, inferred⟩ := target
  cases node
  case variableRef name type origin =>
    exact congrArg (fun r => (_, r.2)) (run_declareLocal name p)
  all_goals exact run_pure_after _ p

theorem run_resolveLoopBinding (k : ClassContext) (binding : Option Binding) (p : Progress) :
    (resolveLoopBinding k binding).run p =
      (binding.map (Binding.bound k),
        p.after (binding.map Binding.name).toList (binding.map Binding.name).toList []) := by
  cases binding with
  | none => exact run_pure_after _ p
  | some b =>
    exact congrArg (fun r => (_, r.2)) (run_declareLocal b.name p)

end Visit

/-! ### Code -/

mutual

/-- A visit of an expression binds it in the environment that the frames are on entry. -/
theorem Expression.resolve_run (k : ClassContext) :
    ∀ (e : Expression) (around : List Enclosure) (p : Progress), p.StandsIn around →
      (e.resolve k).run p =
        (e.bound k p.inStatic p.scope, p.afterPart k.declared around (.expression e))
  | ⟨node, span, inferred⟩, around, p, h => by
    rw [Expression.resolve, run_bind, node.resolve_run k span inferred around p h]
    rfl

theorem ExpressionNode.resolve_run (k : ClassContext) (span : Span) (inferred : Option String) :
    ∀ (n : ExpressionNode) (around : List Enclosure) (p : Progress), p.StandsIn around →
      (n.resolve k span).run p =
        (n.bound k p.inStatic p.scope,
          p.afterPart k.declared around (.expression ⟨n, span, inferred⟩))
  | .call object method arguments safe implicitReceiver, around, p, h => by
    rw [p.afterPart_parts k.declared around rfl rfl rfl, ExpressionNode.resolve, run_bind,
      object.resolve_run k around p h, run_bind, arguments.resolve_run k around _ h.after]
    rfl
  | .staticCall owner method arguments, around, p, h => by
    rw [p.afterPart_parts k.declared around rfl rfl rfl, ExpressionNode.resolve, run_bind,
      arguments.resolve_run k around p h]
    rfl
  | .construct target arguments special, around, p, h => by
    rw [p.afterPart_own k.declared around rfl rfl, ExpressionNode.resolve, run_bind,
      run_resolveTarget k target special arguments span inferred around p, run_bind,
      arguments.resolve_run k around _ h.after]
    rfl
  | .binary left operation right, around, p, h => by
    rw [p.afterPart_parts k.declared around rfl rfl rfl, ExpressionNode.resolve, run_bind,
      left.resolve_run k around p h, run_bind, right.resolve_run k around _ h.after]
    rfl
  | .declaration target value, around, p, h => by
    -- the variable is declared once its value has been visited
    have hfault : (Part.expression ⟨.declaration target value, span, inferred⟩).fault?
        k.declared around = none := rfl
    rw [p.afterPart_eq k.declared around rfl, hfault, ExpressionNode.resolve, run_bind,
      value.resolve_run k around p h, run_bind, run_resolveDeclared]
    exact congrArg (fun q : Progress => (_, (q.afterPart k.declared around _).after _ _ _))
      p.after_nil.symm
  | .ternary condition whenTrue whenFalse, around, p, h => by
    rw [p.afterPart_parts k.declared around rfl rfl rfl, ExpressionNode.resolve, run_bind,
      condition.resolve_run k around p h, run_bind, whenTrue.resolve_run k around _ h.after,
      run_bind, whenFalse.resolve_run k around _ h.after.after]
    rfl
  | .elvis condition value otherwise, around, p, h => by
    rw [p.afterPart_parts k.declared around rfl rfl rfl, ExpressionNode.resolve, run_bind,
      condition.resolve_run k around p h, run_bind, value.resolve_run k around _ h.after, run_bind,
      otherwise.resolve_run k around _ h.after.after]
    rfl
  | .step side operation operand, around, p, h => by
    rw [p.afterPart_parts k.declared around rfl rfl rfl, ExpressionNode.resolve, run_bind,
      operand.resolve_run k around p h]
    rfl
  | .wrap wrapper operand, around, p, h => by
    rw [p.afterPart_parts k.declared around rfl rfl rfl, ExpressionNode.resolve, run_bind,
      operand.resolve_run k around p h]
    rfl
  | .closure parameters code, around, p, h => by
    -- inside, the counters start over, so nothing is asked of those outside
    have hcode := run_inClosure (code.resolve_run k (.closure :: around) _
      ({ p with scope := closureFrame parameters :: p.scope }.standsIn_closure around))
    rw [p.afterPart_framed k.declared around (closureFrame parameters) rfl rfl rfl
      (by intros; simp), ExpressionNode.resolve, run_bind, run_enter, run_bind,
      run_resolveClosureHead, run_bind, hcode]
    rfl
  | .sequence form items, around, p, h => by
    rw [p.afterPart_parts k.declared around rfl rfl rfl, ExpressionNode.resolve, run_bind,
      resolveExpressions_run k items around p h]
    show (_, _) = (_, p.afterParts k.declared around ((items.map Part.expression).map _))
    rw [List.map_map]
    rfl
  | .array elementType elements sizes, around, p, h => by
    rw [p.afterPart_own k.declared around rfl rfl, ExpressionNode.resolve, run_bind, run_require,
      run_bind, resolveExpressions_run k elements around _ h.after, run_bind,
      resolveExpressions_run k sizes around _ h.after.afterParts, Progress.inStatic_afterParts,
      Progress.scope_afterParts_map]
    show (_, _) = (_, (Progress.afterParts _ k.declared around
      (((elements ++ sizes).map Part.expression).map _)))
    rw [List.map_map, List.map_append, Progress.afterParts_append]
    rfl
  | .mapEntry key value, around, p, h => by
    rw [p.afterPart_parts k.declared around rfl rfl rfl, ExpressionNode.resolve, run_bind,
      key.resolve_run k around p h, run_bind, value.resolve_run k around _ h.after]
    rfl
  | .range first last inclusive, around, p, h => by
    rw [p.afterPart_parts k.declared around rfl rfl rfl, ExpressionNode.resolve, run_bind,
      first.resolve_run k around p h, run_bind, last.resolve_run k around _ h.after]
    rfl
  | .methodPointer object method, around, p, h => by
    rw [p.afterPart_parts k.declared around rfl rfl rfl, ExpressionNode.resolve, run_bind,
      object.resolve_run k around p h]
    rfl
  | .cast target operand coerce, around, p, h => by
    rw [p.afterPart_own k.declared around rfl rfl, ExpressionNode.resolve, run_bind, run_require,
      run_bind, operand.resolve_run k around _ h.after]
    rfl
  | .classRef type, around, p, _ => by
    rw [p.afterPart_own k.declared around rfl rfl, ExpressionNode.resolve, run_bind, run_require]
    rfl
  | .variableRef name declared origin, around, p, _ => by
    rw [p.afterPart_parts k.declared around rfl rfl rfl, ExpressionNode.resolve, run_bind,
      run_originOf]
    rfl
  | .access object name accessor, around, p, h => by
    rw [p.afterPart_parts k.declared around rfl rfl rfl, ExpressionNode.resolve, run_bind,
      object.resolve_run k around p h]
    rfl
  | .interpolation fragments values, around, p, h => by
    rw [p.afterPart_parts k.declared around rfl rfl rfl, ExpressionNode.resolve, run_bind,
      resolveExpressions_run k fragments around p h, run_bind,
      resolveExpressions_run k values around _ h.afterParts, Progress.inStatic_afterParts,
      Progress.scope_afterParts_map]
    show (_, _) = (_, (p.afterParts k.declared around ((fragments ++ values).map _)))
    rw [List.map_append, Progress.afterParts_append]
    rfl
  | .constant value, around, p, _ => by
    rw [p.afterPart_parts k.declared around rfl rfl rfl]
    rfl
  | .field name owner, around, p, _ => by
    rw [p.afterPart_parts k.declared around rfl rfl rfl]
    rfl
  | .bytecode instructions, around, p, _ => by
    rw [p.afterPart_parts k.declared around rfl rfl rfl]
    rfl
  | .empty, around, p, _ => by
    rw [p.afterPart_parts k.declared around rfl rfl rfl]
    rfl

theorem resolveExpressions_run (k : ClassContext) :
    ∀ (es : List Expression) (around : List Enclosure) (p : Progress), p.StandsIn around →
      (resolveExpressions k es).run p =
        (boundExpressions k p.inStatic p.scope es,
          p.afterParts k.declared around (es.map fun e => (none, .expression e)))
  | [], _, _, _ => rfl
  | e :: rest, around, p, h => by
    rw [resolveExpressions, run_bind, e.resolve_run k around p h, run_bind,
      resolveExpressions_run k rest around _ h.after]
    rfl

theorem Statement.resolve_run (k : ClassContext) :
    ∀ (s : Statement) (around : List Enclosure) (p : Progress), p.StandsIn around →
      (s.resolve k).run p =
        (s.bound k p.inStatic p.scope, p.afterPart k.declared around (.statement s))
  | ⟨node, span⟩, around, p, h => by
    rw [Statement.resolve, run_bind, node.resolve_run k span around p h]
    rfl

theorem StatementNode.resolve_run (k : ClassContext) (span : Span) :
    ∀ (n : StatementNode) (around : List Enclosure) (p : Progress), p.StandsIn around →
      (n.resolve k span).run p =
        (n.bound k p.inStatic p.scope,
          p.afterPart k.declared around (.statement ⟨n, span⟩))
  | .block statements declared, around, p, h => by
    -- the names answered are those of the frame opened for the block
    rw [p.afterPart_framed k.declared around [] rfl rfl rfl (by intros; simp),
      StatementNode.resolve, run_bind, run_enter, run_bind,
      resolveStatements_run k statements around { p with scope := p.scope.enter } h, run_bind,
      run_leave, Progress.scope_afterParts_map, Scope.innermostNames_declareAll_enter]
    show (_, _) = (_, Progress.closeFrame (Progress.afterParts _ k.declared around
      ((statements.map Part.statement).map _)))
    rw [List.map_map]
    rfl
  | .expression value, around, p, h => by
    rw [p.afterPart_parts k.declared around rfl rfl rfl, StatementNode.resolve, run_bind,
      value.resolve_run k around p h]
    rfl
  | .ret value, around, p, h => by
    rw [p.afterPart_parts k.declared around rfl rfl rfl, StatementNode.resolve, run_bind,
      value.resolve_run k around p h]
    rfl
  | .assertion condition message, around, p, h => by
    rw [p.afterPart_parts k.declared around rfl rfl rfl, StatementNode.resolve, run_bind,
      condition.resolve_run k around p h, run_bind, message.resolve_run k around _ h.after]
    rfl
  | .loop binding collection body, around, p, h => by
    -- the collection stands in the frame of the loop, but not in its body
    have hopen : { p with scope := p.scope.enter }.StandsIn around := h
    rw [p.afterPart_loop k.declared around, StatementNode.resolve, run_bind, run_enter, run_bind,
      collection.resolve_run k around _ hopen, run_bind, run_resolveLoopBinding, run_bind,
      run_inLoop (body.resolve_run k (.loopBody :: around) _ hopen.after.after.loop)]
    rfl
  | .whileLoop condition body, around, p, h => by
    rw [p.afterPart_parts k.declared around rfl rfl rfl, StatementNode.resolve, run_bind,
      condition.resolve_run k around p h, run_bind,
      run_inLoop (body.resolve_run k (.loopBody :: around) _ h.after.loop)]
    rfl
  | .doWhile body condition, around, p, h => by
    rw [p.afterPart_parts k.declared around rfl rfl rfl, StatementNode.resolve, run_bind,
      run_inLoop (body.resolve_run k (.loopBody :: around) _ h.loop), run_bind,
      condition.resolve_run k around _ h.after]
    rfl
  | .branch condition whenTrue whenFalse, around, p, h => by
    rw [p.afterPart_parts k.declared around rfl rfl rfl, StatementNode.resolve, run_bind,
      condition.resolve_run k around p h, run_bind, whenTrue.resolve_run k around _ h.after,
      run_bind, whenFalse.resolve_run k around _ h.after.after]
    rfl
  | .tryCatch body catches finallyBlock, around, p, h => by
    -- catch clauses keep their declarations, so the last block is bound as after the body
    have hcatches : (catches.flatMap fun c => (Part.catchClause c).declares) = [] := by
      simp [Part.declares_eq, Part.hasFrame]
    rw [p.afterPart_parts k.declared around rfl rfl rfl, StatementNode.resolve, run_bind,
      body.resolve_run k around p h, run_bind, resolveCatches_run k catches around _ h.after,
      run_bind, finallyBlock.resolve_run k around _ h.after.afterParts,
      Progress.inStatic_afterParts, Progress.scope_afterParts_map, hcatches]
    show (_, _) = (_, p.afterParts k.declared around
      ((Part.statement body :: catches.map Part.catchClause ++
        [Part.statement finallyBlock]).map _))
    rw [List.map_append, Progress.afterParts_append, List.map_cons, List.map_map]
    rfl
  | .switch subject cases defaultBlock, around, p, h => by
    have hs := h.switch
    rw [p.afterPart_parts k.declared around rfl rfl rfl, Progress.afterParts_eq,
      StatementNode.resolve]
    -- the subject is counted as inside, as the cases are
    refine run_inSwitch ?_
    rw [← Progress.afterParts_eq, run_bind, subject.resolve_run k (.switch :: around) _ hs,
      run_bind, resolveCases_run k cases (.switch :: around) _ hs.after, run_bind,
      defaultBlock.resolve_run k (.switch :: around) _ hs.after.afterParts,
      Progress.inStatic_afterParts, Progress.scope_afterParts_map]
    show (_, _) = (_, Progress.afterParts _ k.declared around
      ((Part.expression subject :: cases.map Part.caseClause ++
        [Part.statement defaultBlock]).map _))
    rw [Progress.afterParts_enclosed, List.map_append, Progress.afterParts_append, List.map_cons,
      List.map_map]
    rfl
  | .breakLoop, around, p, h => by
    rw [p.afterPart_own k.declared around rfl rfl, StatementNode.resolve, run_bind, run_get]
    -- the counters are zero exactly if there is nothing around to leave
    have hdepths := and_congr h.loopDepth_eq_zero_iff h.switchDepth_eq_zero_iff
    by_cases hstray : p.loopDepth = 0 ∧ p.switchDepth = 0
    · rw [Part.fault?, if_pos (hdepths.mp hstray)]
      simp only [if_pos hstray, run_bind, run_report]
      rfl
    · rw [Part.fault?, if_neg (fun hn => hstray (hdepths.mpr hn))]
      simp only [if_neg hstray]
      exact run_pure_after _ p
  | .continueLoop, around, p, h => by
    rw [p.afterPart_own k.declared around rfl rfl, StatementNode.resolve, run_bind, run_get]
    by_cases hstray : p.loopDepth = 0
    · rw [Part.fault?, if_pos (h.loopDepth_eq_zero_iff.mp hstray)]
      simp only [if_pos hstray, run_bind, run_report]
      rfl
    · rw [Part.fault?, if_neg (fun hn => hstray (h.loopDepth_eq_zero_iff.mpr hn))]
      simp only [if_neg hstray]
      exact run_pure_after _ p
  | .synchronized lock code, around, p, h => by
    rw [p.afterPart_parts k.declared around rfl rfl rfl, StatementNode.resolve, run_bind,
      lock.resolve_run k around p h, run_bind, code.resolve_run k around _ h.after]
    rfl
  | .throw value, around, p, h => by
    rw [p.afterPart_parts k.declared around rfl rfl rfl, StatementNode.resolve, run_bind,
      value.resolve_run k around p h]
    rfl
  | .empty, around, p, _ => by
    rw [p.afterPart_parts k.declared around rfl rfl rfl]
    rfl

theorem resolveStatements_run (k : ClassContext) :
    ∀ (ss : List Statement) (around : List Enclosure) (p : Progress), p.StandsIn around →
      (resolveStatements k ss).run p =
        (boundStatements k p.inStatic p.scope ss,
          p.afterParts k.declared around (ss.map fun s => (none, .statement s)))
  | [], _, _, _ => rfl
  | s :: rest, around, p, h => by
    rw [resolveStatements, run_bind, s.resolve_run k around p h, run_bind,
      resolveStatements_run k rest around _ h.after]
    rfl

theorem CatchClause.resolve_run (k : ClassContext) :
    ∀ (c : CatchClause) (around : List Enclosure) (p : Progress), p.StandsIn around →
      (c.resolve k).run p =
        (c.bound k p.inStatic p.scope, p.afterPart k.declared around (.catchClause c))
  | ⟨binding, code, span⟩, around, p, h => by
    have hopen : { p with scope := p.scope.enter.declare binding.name .parameter }.StandsIn
        around := h
    rw [p.afterPart_framed k.declared around [(binding.name, .parameter)] rfl rfl rfl
      (by intros; simp), CatchClause.resolve, run_bind, run_enter, run_bind, run_declare, run_bind,
      code.resolve_run k around _ hopen]
    rfl

theorem resolveCatches_run (k : ClassContext) :
    ∀ (cs : List CatchClause) (around : List Enclosure) (p : Progress), p.StandsIn around →
      (resolveCatches k cs).run p =
        (boundCatches k p.inStatic p.scope cs,
          p.afterParts k.declared around (cs.map fun c => (none, .catchClause c)))
  | [], _, _, _ => rfl
  | c :: rest, around, p, h => by
    -- the next clause is visited in the frames that this one was visited in
    have hscope : (p.afterPart k.declared around (.catchClause c)).scope = p.scope := by
      rw [p.afterPart_frame k.declared around rfl]
      rfl
    rw [resolveCatches, run_bind, c.resolve_run k around p h, run_bind,
      resolveCatches_run k rest around _ h.after, hscope]
    rfl

theorem CaseClause.resolve_run (k : ClassContext) :
    ∀ (c : CaseClause) (around : List Enclosure) (p : Progress), p.StandsIn around →
      (c.resolve k).run p =
        (c.bound k p.inStatic p.scope, p.afterPart k.declared around (.caseClause c))
  | ⟨subject, code, span⟩, around, p, h => by
    rw [p.afterPart_parts k.declared around rfl rfl rfl, CaseClause.resolve, run_bind,
      subject.resolve_run k around p h, run_bind, code.resolve_run k around _ h.after]
    rfl

theorem resolveCases_run (k : ClassContext) :
    ∀ (cs : List CaseClause) (around : List Enclosure) (p : Progress), p.StandsIn around →
      (resolveCases k cs).run p =
        (boundCases k p.inStatic p.scope cs,
          p.afterParts k.declared around (cs.map fun c => (none, .caseClause c)))
  | [], _, _, _ => rfl
  | c :: rest, around, p, h => by
    rw [resolveCases, run_bind, c.resolve_run k around p h, run_bind,
      resolveCases_run k rest around _ h.after]
    rfl

end

end ScriptOutline
