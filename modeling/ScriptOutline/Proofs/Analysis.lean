/-
ScriptOutline/Proofs/Analysis.lean

What the analysis of a module answers.  The members of a class are visited with one stack of
frames, one list of local variables and one set of counters; between two members the stack is
empty and the counters are zero (`Progress.AtTop`).  So each member is bound on its own, each
class is, and the faults of a class add up in the order of its code (`CompiledClass.resolves`).

The two results for modules are:

* `resolve_origins`: a class that is visited is bound lexically, and what a member is bound to
  does not depend on the code of other members or classes;
* `resolve_failure`: the fault that is answered is the first one of the first faulty class.
-/
import ScriptOutline.Proofs.Resolution

namespace ScriptOutline

open Visit

/-! ### Parameters and code -/

/-- Parameters change nothing but the innermost frame. -/
theorem parameterEnvironment_cons :
    ∀ (ps : List Parameter) (frame : Frame) (outer : Scope),
      ∃ inner, parameterEnvironment (frame :: outer) ps = inner :: outer
  | [], frame, _ => ⟨frame, rfl⟩
  | p :: rest, frame, outer => by
    rw [parameterEnvironment, Scope.declareAll_cons]
    exact parameterEnvironment_cons rest _ outer

namespace Progress

/-- The state after code of a member that ends in the given scope. -/
def afterCode (p : Progress) (declared : List String) (scope : Scope) (code : List Part) :
    Progress :=
  { p.after [] (code.flatMap Part.locals) (code.flatMap (Part.faults declared [])) with scope }

variable (p : Progress) (declared : List String)

theorem afterCode_nil : p.afterCode declared p.scope [] = p := p.after_nil

theorem afterCode_afterCode (s s' : Scope) (xs ys : List Part) :
    (p.afterCode declared s xs).afterCode declared s' ys =
      p.afterCode declared s' (xs ++ ys) := by
  simp only [afterCode, after, List.flatMap_append, List.reverse_append, List.append_assoc,
    List.head?_append, Option.or_assoc]

theorem afterParts_eq_afterCode {α : Type} (part : α → Part) (xs : List α) :
    p.afterParts declared [] (xs.map fun x => (none, part x)) =
      p.afterCode declared (p.scope.declareAll (xs.flatMap fun x => (part x).declares))
        (xs.map part) := by
  rw [afterParts_eq, List.flatMap_map, List.flatMap_map, List.flatMap_map, afterCode,
    List.flatMap_map, List.flatMap_map]
  rfl

end Progress

namespace Visit

variable (k : ClassContext)

theorem run_resolveOptional (e : Option Expression) (p : Progress) (h : p.StandsIn []) :
    (resolveOptional k e).run p =
      (e.map (·.bound k p.inStatic p.scope),
        p.afterCode k.declared
          (p.scope.declareAll (e.toList.flatMap fun e => (Part.expression e).declares))
          (e.toList.map .expression)) := by
  rw [← Progress.afterParts_eq_afterCode]
  cases e with
  | none => rfl
  | some e =>
    rw [resolveOptional, run_map, e.resolve_run k [] p h]
    rfl

theorem run_resolveCode (s : Option Statement) (p : Progress) (h : p.StandsIn []) :
    (resolveCode k s).run p =
      (s.map (·.bound k p.inStatic p.scope),
        p.afterCode k.declared
          (p.scope.declareAll (s.toList.flatMap fun s => (Part.statement s).declares))
          (s.toList.map .statement)) := by
  rw [← Progress.afterParts_eq_afterCode]
  cases s with
  | none => rfl
  | some s =>
    rw [resolveCode, run_map, s.resolve_run k [] p h]
    rfl

/-- The default values of the parameters are visited in order, each one before its parameter
is declared. -/
theorem run_resolveParameters :
    ∀ (ps : List Parameter) (p : Progress), p.StandsIn [] →
      (resolveParameters k ps).run p =
        (boundParameters k p.inStatic p.scope ps,
          p.afterCode k.declared (parameterEnvironment p.scope ps)
            ((ps.filterMap Parameter.defaultValue).map .expression))
  | [], p, _ => congrArg (Prod.mk _) (p.afterCode_nil k.declared).symm
  | x :: rest, p, h => by
    have hcode : (((x :: rest).filterMap Parameter.defaultValue).map Part.expression) =
        x.defaultValue.toList.map .expression ++
          (rest.filterMap Parameter.defaultValue).map .expression := by
      cases hx : x.defaultValue <;> simp [hx]
    have ih := run_resolveParameters rest (p.afterCode k.declared
      (parameterEnvironment p.scope [x]) (x.defaultValue.toList.map .expression)) h
    rw [Progress.afterCode_afterCode, ← hcode] at ih
    rw [resolveParameters, run_bind, run_resolveOptional k x.defaultValue p h, run_bind,
      run_declare, run_bind]
    exact congrArg (fun r => (_ :: r.1, r.2)) ih

theorem boundParameters_names (inStatic : Bool) :
    ∀ (ps : List Parameter) (env : Scope),
      (boundParameters k inStatic env ps).map Parameter.name = ps.map Parameter.name
  | [], _ => rfl
  | p :: rest, _ => congrArg (p.name :: ·) (boundParameters_names inStatic rest _)

/-- The parameters and the code of a member: the frame opened for them is closed, and the
names answered are those declared in the member. -/
theorem run_resolveBody (ps : List Parameter) (code : Option Statement) (p : Progress)
    (hscope : p.scope = []) (h : p.StandsIn []) :
    (resolveBody k ps code).run p =
      ((boundParameters k p.inStatic [[]] ps,
          code.map (·.bound k p.inStatic (parameterEnvironment [[]] ps)),
          ps.map Parameter.name ++ (memberCode ps code).flatMap Part.locals),
        { p with locals := [] }.afterCode k.declared [] (memberCode ps code)) := by
  -- the member starts in one empty frame and without local variables
  obtain ⟨q, hq⟩ : ∃ q : Progress, q = { p with locals := [], scope := [[]] } := ⟨_, rfl⟩
  have henter : { p with locals := [], scope := p.scope.enter } = q := by
    rw [hq, hscope]
    rfl
  have hparameters := run_resolveParameters k ps q (hq ▸ h)
  have hcode := run_resolveCode k code (q.afterCode k.declared (parameterEnvironment q.scope ps)
    ((ps.filterMap Parameter.defaultValue).map .expression)) (hq ▸ h)
  rw [Progress.afterCode_afterCode] at hcode
  have hlocals (s : Scope) : (q.afterCode k.declared s (memberCode ps code)).locals.reverse =
      (memberCode ps code).flatMap Part.locals := by
    simp [Progress.afterCode, Progress.after, hq]
  have hclose (names : List String) :
      (q.afterCode k.declared (Scope.declareAll names (parameterEnvironment q.scope ps))
        (memberCode ps code)).closeFrame =
      { p with locals := [] }.afterCode k.declared [] (memberCode ps code) := by
    obtain ⟨inner, hinner⟩ := parameterEnvironment_cons ps [] []
    rw [hq, hinner, Scope.declareAll_cons]
    rfl
  rw [resolveBody, run_bind, run_modify, run_bind, run_enter, henter, run_bind, hparameters,
    run_bind, hcode, run_bind, run_leave, run_bind, run_get, boundParameters_names]
  show ((_, _, _ ++ (q.afterCode k.declared _ (memberCode ps code)).locals.reverse),
    (q.afterCode k.declared (Scope.declareAll _ (parameterEnvironment q.scope ps))
      (memberCode ps code)).closeFrame) = _
  rw [hlocals, hclose, hq]
  rfl

end Visit

/-! ### Members -/

/-- The state between two members. -/
def Progress.AtTop (p : Progress) : Prop := p.scope = [] ∧ p.StandsIn []

/-- Between two members, the visit has the given answer and faults, and ends in between two
members again. -/
def Visit.Resolves {α : Type} (visit : Visit α) (answer : α) (faults : List Failure) : Prop :=
  ∀ p : Progress, p.AtTop →
    ∃ q : Progress, visit.run p = (answer, q) ∧ q.AtTop ∧ q.failure = p.failure.or faults.head?

namespace Visit

variable {α β : Type}

theorem Resolves.pure (x : α) : Resolves (pure x) x [] := fun p h =>
  ⟨p, rfl, h, p.failure.or_none.symm⟩

theorem Resolves.bind {v : Visit α} {x : α} {f : List Failure} {next : α → Visit β} {y : β}
    {g : List Failure} (hv : Resolves v x f) (hnext : Resolves (next x) y g) :
    Resolves (v >>= next) y (f ++ g) := by
  intro p hp
  obtain ⟨q, hq, htop, hf⟩ := hv p hp
  obtain ⟨r, hr, htop', hg⟩ := hnext q htop
  refine ⟨r, ?_, htop', ?_⟩
  · rw [run_bind, hq]
    exact hr
  · rw [hg, hf, Option.or_assoc, List.head?_append]

/-- Code of a member finds out whether the member is static. -/
theorem Resolves.inMember (answer : Bool → α) (isStatic : Bool) {v : Visit α}
    {faults : List Failure}
    (h : ∀ p : Progress, p.AtTop →
      ∃ q : Progress, v.run p = (answer p.inStatic, q) ∧ q.AtTop ∧
        q.failure = p.failure.or faults.head?) :
    Resolves (do enterMember isStatic; v) (answer isStatic) faults := fun p hp =>
  h { p with inStatic := isStatic } hp

theorem resolveEach_resolves {resolve : α → Visit α} {bound : α → α}
    {code : α → List Part} {declared : List String}
    (h : ∀ x, Resolves (resolve x) (bound x) ((code x).flatMap (Part.faults declared []))) :
    ∀ xs : List α,
      Resolves (resolveEach resolve xs) (xs.map bound)
        ((xs.flatMap code).flatMap (Part.faults declared []))
  | [] => Resolves.pure []
  | x :: rest => by
    have hrest : Resolves (do let rest ← resolveEach resolve rest; pure (bound x :: rest))
        (bound x :: rest.map bound) ((rest.flatMap code).flatMap (Part.faults declared []) ++ []) :=
      (resolveEach_resolves h rest).bind (Resolves.pure _)
    rw [List.append_nil] at hrest
    rw [List.flatMap_cons, List.flatMap_append]
    exact (h x).bind hrest

variable (k : ClassContext)

/-- Parameters and code of a member start in one new frame. -/
theorem resolveBody_inMember (isStatic : Bool) (ps : List Parameter) (code : Option Statement)
    (member : List Parameter → Option Statement → List String → α) :
    Resolves
      (do
        enterMember isStatic
        let (parameters, code, names) ← resolveBody k ps code
        pure (member parameters code names))
      (member (boundParameters k isStatic [[]] ps)
        (code.map (·.bound k isStatic (parameterEnvironment [[]] ps)))
        (ps.map Parameter.name ++ (memberCode ps code).flatMap Part.locals))
      ((memberCode ps code).flatMap (Part.faults k.declared [])) := by
  let answer (isStatic : Bool) : α :=
    member (boundParameters k isStatic [[]] ps)
      (code.map (·.bound k isStatic (parameterEnvironment [[]] ps)))
      (ps.map Parameter.name ++ (memberCode ps code).flatMap Part.locals)
  refine Resolves.inMember answer isStatic fun p htop => ?_
  refine ⟨{ p with locals := [] }.afterCode k.declared [] (memberCode ps code), ?_,
    ⟨rfl, htop.2⟩, rfl⟩
  rw [run_bind, run_resolveBody k ps code p htop.1 htop.2]
  rfl

end Visit

variable (k : ClassContext)

theorem Field.resolves (f : Field) :
    Visit.Resolves (f.resolve k) (f.bound k)
      ((f.initial.toList.map Part.expression).flatMap (Part.faults k.declared [])) := by
  let answer (isStatic : Bool) : Field :=
    { f with
      type := f.type.resolve k.declared
      initial := f.initial.map (·.bound k isStatic []) }
  refine Visit.Resolves.inMember answer f.modifiers.isStatic fun p htop => ?_
  have hrun := run_resolveOptional k f.initial p htop.2
  rw [htop.1, Scope.declareAll_outside] at hrun
  refine ⟨p.afterCode k.declared [] (f.initial.toList.map .expression), ?_, ⟨rfl, htop.2⟩, rfl⟩
  rw [run_bind, hrun]
  rfl

theorem Constructor.resolves (c : Constructor) :
    Visit.Resolves (c.resolve k) (c.bound k)
      ((memberCode c.parameters c.code).flatMap (Part.faults k.declared [])) :=
  resolveBody_inMember k false c.parameters c.code
    fun parameters code _ => ({ c with parameters, code } : Constructor)

theorem Method.resolves (m : Method) :
    Visit.Resolves (m.resolve k) (m.bound k)
      ((memberCode m.parameters m.code).flatMap (Part.faults k.declared [])) :=
  resolveBody_inMember k m.modifiers.isStatic m.parameters m.code
    fun parameters code names =>
      ({ m with
        returnType := m.returnType.resolve k.declared, parameters, code
        variableScope := some names } : Method)

/-! ### Classes -/

/-- The code of the members plays no role for what is known about a class. -/
theorem ClassContext.of_signature (declared : List String) (c : CompiledClass) :
    ClassContext.of declared c.signature = ClassContext.of declared c := by
  simp [ClassContext.of, CompiledClass.signature, Function.comp_def, List.filter_map]

/-- A class is resolved member by member. -/
theorem CompiledClass.resolves (declared : List String) (c : CompiledClass) :
    Visit.Resolves (c.resolve declared) (c.bound declared) (c.faults declared) := by
  have hfields := resolveEach_resolves (Field.resolves (.of declared c)) c.fields
  have hconstructors := resolveEach_resolves (Constructor.resolves (.of declared c)) c.constructors
  have hmethods := resolveEach_resolves (Method.resolves (.of declared c)) c.methods
  rw [CompiledClass.bound, ClassContext.of_signature, CompiledClass.faults,
    CompiledClass.analysedCode, List.flatMap_append, List.flatMap_append, List.append_assoc]
  refine hfields.bind (hconstructors.bind ?_)
  rw [← List.append_nil (List.flatMap _ _)]
  exact hmethods.bind (Resolves.pure _)

/-! ### Modules -/

theorem Progress.atTop_start : Progress.AtTop {} := ⟨rfl, rfl, rfl⟩

/-- Classes are bound up to and with the first faulty one. -/
theorem resolveClasses_getElem? (declared : List String) :
    ∀ (cs : List CompiledClass) (i : Nat),
      (resolveClasses declared cs).1[i]? = cs[i]?.map fun c =>
        if ∀ d ∈ cs.take i, d.faults declared = [] then c.bound declared else c
  | [], _ => rfl
  | c :: rest, i => by
    obtain ⟨q, hq, -, hf⟩ := c.resolves declared {} Progress.atTop_start
    cases hc : c.faults declared with
    | nil =>
      -- the class is bound, and the visit goes on
      have hnone : q.failure = none := by rw [hf, hc]; rfl
      rw [resolveClasses]
      simp only [hq, hnone]
      cases i with
      | zero => simp
      | succ i => simp [resolveClasses_getElem? declared rest i, hc]
    | cons fault more =>
      -- the class is bound, but the classes behind it are not visited
      have hsome : q.failure = some fault := by rw [hf, hc]; rfl
      rw [resolveClasses]
      simp only [hq, hsome]
      cases i with
      | zero => simp
      | succ i => simp [hc]

/-- The fault answered is the first one of all. -/
theorem resolveClasses_failure (declared : List String) :
    ∀ cs : List CompiledClass,
      (resolveClasses declared cs).2 = (cs.flatMap (CompiledClass.faults declared)).head?
  | [] => rfl
  | c :: rest => by
    obtain ⟨q, hq, -, hf⟩ := c.resolves declared {} Progress.atTop_start
    have hfailure : q.failure = (c.faults declared).head? := hf
    rw [resolveClasses, List.flatMap_cons, List.head?_append]
    simp only [hq, hfailure]
    cases (c.faults declared).head? with
    | none => exact resolveClasses_failure declared rest
    | some fault => rfl

namespace CompiledModule

/-- The names of the classes of a module. -/
def classNames (m : CompiledModule) : List String := m.classes.map CompiledClass.name

/-- No class before the given position has a fault. -/
def Visits (m : CompiledModule) (i : Nat) : Prop :=
  ∀ d ∈ m.classes.take i, d.faults m.classNames = []

instance (m : CompiledModule) (i : Nat) : Decidable (m.Visits i) :=
  inferInstanceAs (Decidable (∀ d ∈ m.classes.take i, d.faults m.classNames = []))

/-- Every class that is visited is bound: its variables have the origins that their lexical
environments give them.  To what a member is bound depends on its own code and on the
signatures of the classes, and not on the code of any other member. -/
theorem resolve_origins (m : CompiledModule) :
    (∀ i, m.resolve.1.classes[i]? =
      m.classes[i]?.map fun c => if m.Visits i then c.bound m.classNames else c) ∧
    ∀ m' : CompiledModule,
      m'.classes.map CompiledClass.signature = m.classes.map CompiledClass.signature →
      ∀ i, m.Visits i → m'.Visits i → ∀ c c' r r' : CompiledClass,
        m.classes[i]? = some c → m.resolve.1.classes[i]? = some r →
        m'.classes[i]? = some c' → m'.resolve.1.classes[i]? = some r' → ∀ j : Nat,
          (c'.fields[j]? = c.fields[j]? → r'.fields[j]? = r.fields[j]?) ∧
          (c'.constructors[j]? = c.constructors[j]? →
            r'.constructors[j]? = r.constructors[j]?) ∧
          (c'.methods[j]? = c.methods[j]? → r'.methods[j]? = r.methods[j]?) := by
  have hclasses (m : CompiledModule) (i : Nat) : m.resolve.1.classes[i]? =
      m.classes[i]?.map fun c => if m.Visits i then c.bound m.classNames else c :=
    resolveClasses_getElem? m.classNames m.classes i
  refine ⟨hclasses m, fun m' hsignature i hm hm' c c' r r' hc hr hc' hr' j => ?_⟩
  -- the same signatures make the same context for both classes
  have hnames : m'.classNames = m.classNames := by
    have := congrArg (List.map CompiledClass.name) hsignature
    rwa [List.map_map, List.map_map] at this
  have hsame : c'.signature = c.signature := by
    have := congrArg (·[i]?) hsignature
    simpa [hc, hc'] using this
  rw [hclasses, hc, Option.map_some, if_pos hm, Option.some.injEq] at hr
  rw [hclasses, hc', Option.map_some, if_pos hm', Option.some.injEq, hnames] at hr'
  subst hr hr'
  simp only [CompiledClass.bound, List.getElem?_map, hsame]
  exact ⟨fun h => by rw [h], fun h => by rw [h], fun h => by rw [h]⟩

/-- A class with a field `x`, a method `f` that answers it, and a method `g` with the given
code. -/
def withCode (code : Statement) : CompiledModule :=
  { name := "A"
    classes := [
      { name := "A", modifiers := {}, superClass := .named "Object", interfaces := []
        annotations := [], constructors := []
        methods := [
          .generated "f" {} (.named "int") []
            ⟨.ret ⟨.variableRef "x" none none, .unwritten, none⟩, .unwritten⟩,
          .generated "g" {} (.named "int") [] code]
        fields := [
          { name := "x", modifiers := {}, type := .named "int", annotations := []
            initial := none, owner := "A", span := .unwritten }]
        properties := [], isScript := false, generated := false, span := .unwritten }] }

/-- The variable in `f` is the field, although `g` declares a local variable of that name. -/
theorem origins_of_field_and_local :
    let x : Expression := ⟨.variableRef "x" none none, .unwritten, none⟩
    let m := withCode ⟨.empty, .unwritten⟩
    let m' := withCode ⟨.expression ⟨.declaration x x, .unwritten, none⟩, .unwritten⟩
    (m.resolve.1.classes[0]?.bind (·.methods[0]?)) =
      (m'.resolve.1.classes[0]?.bind (·.methods[0]?)) := by
  intro x m m'
  have h := (resolve_origins m).2 m' rfl 0 (by decide) (by decide) _ _ _ _ rfl rfl rfl rfl 0
  exact (h.2.2 rfl).symm

/-- An error is answered exactly if some code that is visited violates a rule.  It is the one
of the first violation, in the order of the visit, of the first class that has one. -/
theorem resolve_failure (m : CompiledModule) :
    (m.resolve.2.isSome ↔ ∃ c ∈ m.classes, ∃ q ∈ c.analysedCode, ∃ x ∈ q.sites [],
      (x.fault? m.classNames).isSome) ∧
    m.resolve.2 = (m.classes.flatMap (CompiledClass.faults m.classNames)).head? := by
  have hfailure : m.resolve.2 =
      (m.classes.flatMap (CompiledClass.faults m.classNames)).head? :=
    resolveClasses_failure m.classNames m.classes
  refine ⟨?_, hfailure⟩
  have hmem (fault : Failure) :
      fault ∈ m.classes.flatMap (CompiledClass.faults m.classNames) ↔
        ∃ c ∈ m.classes, ∃ q ∈ c.analysedCode, ∃ x ∈ q.sites [],
          x.fault? m.classNames = some fault := by
    simp only [List.mem_flatMap, CompiledClass.faults, Part.faults, List.mem_filterMap]
  rw [hfailure, List.isSome_head?]
  constructor
  · intro hne
    obtain ⟨fault, hfault⟩ := List.exists_mem_of_ne_nil _ hne
    obtain ⟨c, hc, q, hq, x, hx, hx'⟩ := (hmem fault).mp hfault
    exact ⟨c, hc, q, hq, x, hx, Option.isSome_of_eq_some hx'⟩
  · rintro ⟨c, hc, q, hq, x, hx, hx'⟩
    obtain ⟨fault, hfault⟩ := Option.isSome_iff_exists.mp hx'
    exact List.ne_nil_of_mem ((hmem fault).mpr ⟨c, hc, q, hq, x, hx, hfault⟩)

end CompiledModule

end ScriptOutline
