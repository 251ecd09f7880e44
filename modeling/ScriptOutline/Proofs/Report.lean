/-
ScriptOutline/Proofs/Report.lean

Where a failure points.  A failure is explained by a piece, and has its span: a class or a member
that conversion refuses, or code that names an unknown class or leaves a construct that it is not
in (`Piece.Explains`).  A piece that explains a failure has been written, for what stands for
missing code explains none.  So, if it is in a script that was read, its span is not empty and
ends within the source (`Script.Contains.span_of_explains`).

Compilation also works on what is in no script: the script class, its method `main` and its
constructors.  They are not what a failure is about.  The script class comes first, so that no
class before it has its name (`CompiledModule.Refuses.exists_reports`), and in the code of its
generated members nothing is wrong, since the class that `main` names is the script class itself
(`scriptClass_faults`).

`Compilation.compile_error_written` says of every source that can be read and not compiled which
phase fails, and that a piece of the script explains why.
-/
import ScriptOutline.Proofs.Offence
import ScriptOutline.Proofs.Retry

namespace ScriptOutline

/-! ### Explanations -/

/-- The failure is about the piece, and has its span. -/
inductive Piece.Explains : Piece → Failure → Prop
  | duplicateClass {d : ClassDeclaration} :
    Explains (.declaration d) ⟨.duplicateClass d.name, d.span⟩
  | misnamedConstructor {c : Constructor} {name className : String} :
    Explains (.constructor c) ⟨.misnamedConstructor name className, c.span⟩
  | duplicateField {f : Field} {className : String} :
    Explains (.field f) ⟨.duplicateField f.name className, f.span⟩
  | construct {type arguments span inferred} :
    Explains (.code (.expression ⟨.construct type arguments none, span, inferred⟩))
      ⟨.unknownClass type.name, span⟩
  | classRef {type span inferred} :
    Explains (.code (.expression ⟨.classRef type, span, inferred⟩)) ⟨.unknownClass type.name, span⟩
  | cast {type value coerce span inferred} :
    Explains (.code (.expression ⟨.cast type value coerce, span, inferred⟩))
      ⟨.unknownClass type.name, span⟩
  | array {type sizes values span inferred} :
    Explains (.code (.expression ⟨.array type sizes values, span, inferred⟩))
      ⟨.unknownClass type.name, span⟩
  | strayBreak {span} : Explains (.code (.statement ⟨.breakLoop, span⟩)) ⟨.strayBreak, span⟩
  | strayContinue {span} :
    Explains (.code (.statement ⟨.continueLoop, span⟩)) ⟨.strayContinue, span⟩

/-- Something in the piece explains the failure. -/
def Piece.Reports (p : Piece) (f : Failure) : Prop := ∃ q, p.Reaches q ∧ q.Explains f

section

variable {p q : Piece} {f : Failure}

theorem Piece.Explains.span_eq (h : p.Explains f) : p.span = f.span := by
  cases h <;> rfl

theorem Piece.Explains.reports (h : p.Explains f) : p.Reports f := ⟨p, .refl, h⟩

theorem Piece.Reports.of_inner (h : q.Reports f) (hq : q ∈ p.inner) : p.Reports f := by
  obtain ⟨r, hr, hf⟩ := h
  exact ⟨r, .head hq hr, hf⟩

/-- What was not written is nothing that a failure could be about. -/
theorem Piece.Lacks.not_explains (h : p.Lacks q) : ¬ q.Explains f := by
  intro hf
  obtain ⟨h⟩ := h
  cases h <;> cases hf

/-- A piece of a source that explains a failure spans some of its characters. -/
theorem Script.Contains.span_of_explains {source : String} {s : Script}
    (hscript : Script.parse source = .ok s) (hp : s.Contains p) (h : p.Explains f) :
    f.span.start < f.span.stop ∧ f.span.stop ≤ source.length := by
  obtain ⟨root, hroot, hreach⟩ := hp
  have hstands : root.Stands 0 source.length := Script.parse_stands hscript root hroot
  have hfits : p.Fits source.length :=
    hreach.fits hstands.settled (Piece.fits_of_mem_roots hroot hstands.le_stop)
  rw [← h.span_eq]
  refine ⟨?_, hfits.1⟩
  rcases Relation.ReflTransGen.cases_tail hreach with rfl | ⟨around, haround, hinner⟩
  · exact hstands.nonempty
  · rcases hstands.settled around haround p hinner with hlacks | ⟨-, hlt, -⟩
    · exact absurd h hlacks.not_explains
    · exact hlt

end

/-! ### Code -/

/-- What is visited in a piece of code is in it. -/
theorem Part.reaches_of_mem_sites {around : List Enclosure} {p : Part} {x : Site}
    (h : x ∈ p.sites around) : (Piece.code p).Reaches (.code x.2) := by
  rw [sites_eq, List.mem_cons, List.mem_flatMap] at h
  rcases h with rfl | ⟨y, hy, hx⟩
  · exact .refl
  · exact .head (List.mem_map_of_mem (mem_inner_of_mem_analysed hy)) (reaches_of_mem_sites hx)
termination_by sizeOf p
decreasing_by exact sizeOf_lt_of_mem_analysed hy

section

variable {declared : List String} {around : List Enclosure} {f : Failure}

theorem Part.explains_of_fault? {q : Part} (h : q.fault? declared around = some f) :
    (Piece.code q).Explains f := by
  have hif {p : Prop} [Decidable p] {g : Failure} (hg : (Piece.code q).Explains g)
      (h : (if p then some g else none) = some f) : (Piece.code q).Explains f := by
    split at h
    · obtain rfl := Option.some.inj h
      exact hg
    · cases h
  rw [Part.fault?.eq_def] at h
  split at h
  · exact hif .construct h
  · exact hif .classRef h
  · exact hif .cast h
  · exact hif .array h
  · exact hif .strayBreak h
  · exact hif .strayContinue h
  · cases h

/-- What is wrong with code is explained by code in it. -/
theorem Part.reports_of_mem_faults {p : Part} (h : f ∈ p.faults declared around) :
    (Piece.code p).Reports f := by
  obtain ⟨x, hx, hf⟩ := List.mem_filterMap.mp h
  exact ⟨.code x.2, reaches_of_mem_sites hx, explains_of_fault? hf⟩

end

/-! ### Members -/

/-- The default values and the body of a member are pieces directly in it. -/
theorem code_mem_of_mem_memberCode {q : Part} {ps : List Parameter} {code : Option Statement}
    (h : q ∈ memberCode ps code) :
    .code q ∈ (defaultValues ps).map Piece.ofExpression ++ code.toList.map Piece.ofStatement := by
  have hcode : (memberCode ps code).map Piece.code =
      (defaultValues ps).map Piece.ofExpression ++ code.toList.map Piece.ofStatement := by
    simp only [memberCode, List.map_append, List.map_map]
    rfl
  rw [← hcode]
  exact List.mem_map_of_mem h

theorem Constructor.code_mem_inner {c : Constructor} {q : Part}
    (h : q ∈ memberCode c.parameters c.code) : .code q ∈ (Piece.constructor c).inner := by
  rw [Piece.inner, List.append_assoc]
  exact List.mem_append_right _ (code_mem_of_mem_memberCode h)

theorem Method.code_mem_inner {m : Method} {q : Part}
    (h : q ∈ memberCode m.parameters m.code) : .code q ∈ (Piece.method m).inner := by
  rw [Piece.inner, List.append_assoc]
  exact List.mem_append_right _ (code_mem_of_mem_memberCode h)

/-- The code of a class that is visited is directly in its members. -/
theorem CompiledClass.exists_mem_pieces {c : CompiledClass} {q : Part} (h : q ∈ c.analysedCode) :
    ∃ p ∈ c.pieces, .code q ∈ p.inner := by
  simp only [analysedCode, List.mem_append, List.mem_flatMap] at h
  simp only [pieces, List.mem_append]
  rcases h with (⟨x, hx, hq⟩ | ⟨x, hx, hq⟩) | ⟨x, hx, hq⟩
  · refine ⟨.field x, .inl (.inl (List.mem_map_of_mem hx)), List.mem_append_right _ ?_⟩
    obtain ⟨e, he, rfl⟩ := List.mem_map.mp hq
    exact List.mem_map_of_mem he
  · exact ⟨.constructor x, .inl (.inr (List.mem_map_of_mem hx)), x.code_mem_inner hq⟩
  · exact ⟨.method x, .inr (List.mem_map_of_mem hx), x.code_mem_inner hq⟩

/-! ### Declared classes -/

namespace ClassDeclaration

variable {d : ClassDeclaration} {f : Failure}

/-- A sorted member has the same pieces in it as the member that was written. -/
theorem exists_member (d : ClassDeclaration) :
    ∀ p ∈ d.sorted.pieces, ∃ member ∈ d.members, p.inner = member.piece.inner := by
  have hsorted {α : Type} {category : Member → Option α} {piece : α → Piece}
      (h : ∀ member x, category member = some x → (piece x).inner = member.piece.inner) :
      ∀ x ∈ d.members.filterMap category,
        ∃ member ∈ d.members, (piece x).inner = member.piece.inner := by
    intro x hx
    obtain ⟨member, hmember, hcategory⟩ := List.mem_filterMap.mp hx
    exact ⟨member, hmember, h member x hcategory⟩
  refine CompiledClass.forall_mem_pieces.mpr ⟨hsorted ?_, hsorted ?_, hsorted ?_⟩
  all_goals
    intro member x hx
    cases member <;> cases hx
    all_goals rfl

theorem reports_of_member {member : Member} (hmember : member ∈ d.members)
    (h : member.piece.Reports f) : (Piece.declaration d).Reports f :=
  h.of_inner (List.mem_append_right _ (List.mem_map_of_mem hmember))

/-- What is wrong in the code of a declared class is explained by code in it. -/
theorem reports_of_mem_faults {declared : List String} (h : f ∈ d.sorted.faults declared) :
    (Piece.declaration d).Reports f := by
  obtain ⟨q, hq, hf⟩ := List.mem_flatMap.mp h
  obtain ⟨p, hp, hqp⟩ := CompiledClass.exists_mem_pieces hq
  obtain ⟨member, hmember, hinner⟩ := d.exists_member p hp
  exact reports_of_member hmember ((Part.reports_of_mem_faults hf).of_inner (hinner ▸ hqp))

theorem FailsWith.reports (h : d.FailsWith f) : (Piece.declaration d).Reports f := by
  obtain ⟨before, member, after, hmembers, -, hoffends⟩ := h
  have hmember : member ∈ d.members := by
    rw [hmembers]
    exact List.mem_append_right _ List.mem_cons_self
  have hexplains : member.piece.Explains f := by
    cases hoffends with
    | field | property => exact .duplicateField
    | constructor => exact .misnamedConstructor
  exact reports_of_member hmember hexplains.reports

end ClassDeclaration

/-! ### The script class -/

section

variable {declared : List String} {around : List Enclosure} {name : String}

/-- Nothing is wrong with code if nothing is with it on its own and with the code in it. -/
theorem Part.faults_eq_nil {p : Part} (hp : p.fault? declared around = none)
    (h : ∀ x ∈ p.analysed, x.2.faults declared (x.1.toList ++ around) = []) :
    p.faults declared around = [] := by
  rw [faults_eq, hp, List.flatMap_eq_nil_iff.mpr h]
  rfl

theorem Part.faults_variable (name : String) (declared : List String) (around : List Enclosure) :
    (Part.expression (.ofName name)).faults declared around = [] :=
  faults_eq_nil rfl (by rintro _ ⟨⟩)

/-- Nothing is wrong in `main` if the class that it names is declared. -/
theorem mainMethod_faults (h : name ∈ declared) :
    (memberCode (mainMethod name).parameters (mainMethod name).code).flatMap
      (Part.faults declared []) = [] := by
  have hclass (around : List Enclosure) :
      (Part.expression (.unwritten (.classRef (.named name)))).faults declared around = [] :=
    Part.faults_eq_nil (if_neg fun hunknown => hunknown.1 h) (by rintro _ ⟨⟩)
  refine List.flatMap_eq_nil_iff.mpr (List.forall_mem_singleton.mpr ?_)
  -- the block, its only statement, the call and the arguments
  refine Part.faults_eq_nil rfl (List.forall_mem_singleton.mpr ?_)
  refine Part.faults_eq_nil rfl (List.forall_mem_singleton.mpr ?_)
  refine Part.faults_eq_nil rfl (List.forall_mem_singleton.mpr ?_)
  refine Part.faults_eq_nil rfl (List.forall_mem_cons.mpr ⟨hclass _, ?_⟩)
  exact List.forall_mem_singleton.mpr (Part.faults_variable _ _ _)

theorem scriptConstructors_faults (declared : List String) :
    (scriptConstructors.flatMap fun c => memberCode c.parameters c.code).flatMap
      (Part.faults declared []) = [] := by
  refine List.flatMap_eq_nil_iff.mpr (List.forall_mem_cons.mpr
    ⟨Part.faults_eq_nil rfl (by rintro _ ⟨⟩), List.forall_mem_singleton.mpr ?_⟩)
  refine Part.faults_eq_nil rfl (List.forall_mem_singleton.mpr ?_)
  refine Part.faults_eq_nil rfl (List.forall_mem_singleton.mpr ?_)
  refine Part.faults_eq_nil rfl (List.forall_mem_singleton.mpr ?_)
  exact Part.faults_eq_nil rfl (List.forall_mem_singleton.mpr (Part.faults_variable _ _ _))

theorem runMethod_faults (declared : List String) (statements : List Statement) :
    (memberCode (runMethod statements).parameters (runMethod statements).code).flatMap
        (Part.faults declared []) =
      (statements.map Part.statement).flatMap (Part.faults declared []) := by
  have hcode : memberCode (runMethod statements).parameters (runMethod statements).code =
      [Part.statement (.block statements)] := rfl
  have hparts : (Part.statement (.block statements)).analysed =
      (statements.map Part.statement).map fun q => (none, q) := rfl
  have hself : (Part.statement (.block statements)).fault? declared [] = none := rfl
  rw [hcode, List.flatMap_singleton, Part.faults_eq, hself, hparts, List.flatMap_map]
  rfl

/-- What is wrong in the script class is wrong in code of the script: nothing is in what was
generated around it. -/
theorem scriptClass_faults (h : name ∈ declared) (statements : List Statement)
    (methods : List Method) :
    (scriptClass name statements methods).faults declared =
      (statements.map Part.statement).flatMap (Part.faults declared []) ++
        (methods.flatMap fun m => memberCode m.parameters m.code).flatMap
          (Part.faults declared []) := by
  rw [CompiledClass.faults, CompiledClass.analysedCode, List.flatMap_append, List.flatMap_append]
  simp only [scriptClass, List.flatMap_nil, List.nil_append, List.flatMap_cons,
    List.flatMap_append, scriptConstructors_faults, mainMethod_faults h, runMethod_faults]

end

/-! ### Scripts -/

/-- Something in the script explains the failure. -/
def Script.Reports (s : Script) (f : Failure) : Prop := ∃ p, s.Contains p ∧ p.Explains f

section

variable {unitName : String} {s : Script} {c : CompiledClass} {f : Failure}

theorem Script.Reports.of_root {root : Piece} (hroot : root ∈ s.roots) (h : root.Reports f) :
    s.Reports f := by
  obtain ⟨p, hp, hf⟩ := h
  exact ⟨p, ⟨root, hroot, hp⟩, hf⟩

theorem Script.reports_of_declaration {d : ClassDeclaration} (hd : d ∈ s.classes)
    (h : (Piece.declaration d).Reports f) : s.Reports f :=
  .of_root (List.mem_append_right _ (List.mem_map_of_mem hd)) h

theorem Script.mem_sortedClasses (h : c ∈ s.sortedClasses unitName) :
    c = scriptClass (scriptClassName unitName) s.statements s.methods ∨
      ∃ d ∈ s.classes, c = d.sorted := by
  rw [sortedClasses, List.mem_append] at h
  rcases h with h | h
  · split at h
    · simp at h
    · exact .inl (List.mem_singleton.mp h)
  · obtain ⟨d, hd, rfl⟩ := List.mem_map.mp h
    exact .inr ⟨d, hd, rfl⟩

/-- Before the script class there is no class: a class that has another one before it is
declared. -/
theorem Script.exists_declaration {before after : List CompiledClass}
    (h : s.sortedClasses unitName = before ++ c :: after) (hbefore : before ≠ []) :
    ∃ d ∈ s.classes, c = d.sorted := by
  have hmem : c ∈ s.classes.map ClassDeclaration.sorted := by
    rw [sortedClasses] at h
    split at h
    · rw [List.nil_append] at h
      rw [h]
      exact List.mem_append_right _ List.mem_cons_self
    · obtain ⟨b, before, rfl⟩ := List.exists_cons_of_ne_nil hbefore
      have htail : s.classes.map ClassDeclaration.sorted = before ++ c :: after :=
        (List.cons.inj h).2
      rw [htail]
      exact List.mem_append_right _ List.mem_cons_self
  obtain ⟨d, hd, rfl⟩ := List.mem_map.mp hmem
  exact ⟨d, hd, rfl⟩

/-- What conversion refuses is in the script. -/
theorem CompiledModule.Refuses.reports (h : Refuses unitName s f) : s.Reports f := by
  rcases h with ⟨before, d, after, hclasses, -, hd⟩ |
    ⟨-, before, c, after, hclasses, -, hc, rfl⟩
  · refine Script.reports_of_declaration ?_ hd.reports
    rw [hclasses]
    exact List.mem_append_right _ List.mem_cons_self
  · have hbefore : before ≠ [] := by
      rintro rfl
      simp at hc
    obtain ⟨d, hd, rfl⟩ := Script.exists_declaration hclasses hbefore
    have hexplains : (Piece.declaration d).Explains
        ⟨.duplicateClass d.sorted.name, d.sorted.span⟩ := .duplicateClass
    exact Script.reports_of_declaration hd hexplains.reports

/-- What is wrong in the code of the script class is in the script. -/
theorem Script.reports_of_mem_faults {declared : List String} {name : String}
    (hname : name ∈ declared)
    (h : f ∈ (scriptClass name s.statements s.methods).faults declared) : s.Reports f := by
  rw [scriptClass_faults hname, List.mem_append] at h
  rcases h with h | h
  · obtain ⟨_, hq, hf⟩ := List.mem_flatMap.mp h
    obtain ⟨x, hx, rfl⟩ := List.mem_map.mp hq
    refine .of_root (List.mem_append_left _ (List.mem_append_left _ (List.mem_map_of_mem hx))) ?_
    exact Part.reports_of_mem_faults hf
  · obtain ⟨q, hq, hf⟩ := List.mem_flatMap.mp h
    obtain ⟨m, hm, hq⟩ := List.mem_flatMap.mp hq
    refine .of_root (List.mem_append_left _ (List.mem_append_right _ (List.mem_map_of_mem hm))) ?_
    exact (Part.reports_of_mem_faults hf).of_inner (m.code_mem_inner hq)

/-- What semantic analysis refuses is in the script. -/
theorem CompiledModule.reports_of_resolve {m : CompiledModule} (hm : ofScript unitName s = .ok m)
    (hf : m.resolve.2 = some f) : s.Reports f := by
  have hfirst : (m.classes.flatMap (CompiledClass.faults m.classNames)).head? = some f :=
    (resolveClasses_failure m.classNames m.classes).symm.trans hf
  obtain ⟨c, hc, hfault⟩ := List.mem_flatMap.mp (List.mem_of_mem_head? hfirst)
  obtain ⟨-, -, rfl⟩ := ofScript_eq_ok_iff.mp hm
  have hname : c.name ∈ classNames ⟨unitName, s.sortedClasses unitName⟩ := List.mem_map_of_mem hc
  rcases Script.mem_sortedClasses hc with rfl | ⟨d, hd, rfl⟩
  · exact Script.reports_of_mem_faults hname hfault
  · exact Script.reports_of_declaration hd (ClassDeclaration.reports_of_mem_faults hfault)

end

/-! ### Compilations -/

namespace Compilation

variable {α : Type} {name source : String} {script : Script} {target : Phase}
  {operations : List (CompiledModule → CompiledClass → α)} {c : Compilation α}
  {error : CompileError}

/-- Conversion or semantic analysis fails for something that is in the script. -/
theorem Failed.reports (hscript : Script.parse source = .ok script)
    (h : Failed name source operations error c) :
    (error.phase = .conversion ∧ c.completed = some .parsing ∨
      error.phase = .semanticAnalysis ∧ c.completed = some .conversion) ∧
    ∃ f, error = .failure f ∧ script.Reports f := by
  cases h with
  | parsing hfault => simp [hscript] at hfault
  | conversion hsame hm =>
    rename_i f
    obtain rfl := Except.ok.inj (hscript.symm.trans hsame)
    refine ⟨.inl ⟨CompiledModule.ofScript_error hm, rfl⟩, f, rfl, ?_⟩
    exact (CompiledModule.ofScript_eq_error_iff.mp hm).reports
  | resolution hsame hm hf =>
    rename_i m f
    obtain rfl := Except.ok.inj (hscript.symm.trans hsame)
    refine ⟨.inr ⟨CompiledModule.resolve_error hf, rfl⟩, f, rfl, ?_⟩
    exact CompiledModule.reports_of_resolve hm hf

/-- If a source can be read but not compiled, then conversion or semantic analysis has failed and
the phase before it is the last one completed.  The error is explained by a piece of the script
and has its span, which is not empty and ends within the source. -/
theorem compile_error_written (hscript : Script.parse source = .ok script)
    (h : (ready name source operations).compile target = (c, .error error)) :
    (error.phase = .conversion ∧ c.completed = some .parsing ∨
      error.phase = .semanticAnalysis ∧ c.completed = some .conversion) ∧
    ∃ f p, error = .failure f ∧ script.Contains p ∧ p.Explains f ∧ p.span = f.span ∧
      f.span.start < f.span.stop ∧ f.span.stop ≤ source.length := by
  have hfresh : Standing name source (ready name source operations) := .fresh
  obtain ⟨hfailed, -⟩ := hfresh.compile_error h
  obtain ⟨hphase, f, rfl, p, hp, hexplains⟩ := hfailed.reports hscript
  exact ⟨hphase, f, p, rfl, hp, hexplains, hexplains.span_eq,
    hp.span_of_explains hscript hexplains⟩

/-- An object of an unknown class, which is one of the statements of the script class. -/
def lostObject : String := "int x\nnew Lost(x)"

theorem compile_error_written_lostObject :
    ∃ script p, Script.parse lostObject = .ok script ∧ script.Contains p ∧ p.span = ⟨6, 17⟩ ∧
      ∃ c : Compilation Unit, (ready "Script1" lostObject []).compile .finalization =
        (c, .error (.failure ⟨.unknownClass "Lost", ⟨6, 17⟩⟩)) ∧
        c.completed = some .conversion := by
  have hscript : (Script.parse lostObject).toOption.isSome = true := by decide +kernel
  have herror : ((ready "Script1" lostObject [] : Compilation Unit).compile .finalization).2 =
      .error (.failure ⟨.unknownClass "Lost", ⟨6, 17⟩⟩) := by decide +kernel
  obtain ⟨c, hc, -⟩ := exists_of_answer _ (fun _ => True) herror trivial
  cases hparse : Script.parse lostObject with
  | error fault => simp [hparse, Except.toOption] at hscript
  | ok script =>
    obtain ⟨⟨hphase, -⟩ | ⟨-, hcompleted⟩, f, p, hf, hp, -, hspan, -⟩ :=
      compile_error_written hparse hc
    · exact absurd hphase (by decide)
    · obtain rfl := CompileError.failure.inj hf
      exact ⟨script, p, rfl, hp, hspan, c, hc, hcompleted⟩

end Compilation

end ScriptOutline
