/-
ScriptOutline/Proofs/Layout.lean

How the outline that a session answers is laid out.  Before conversion the root stands alone.
From conversion on the block of the top-level statements comes first, if there are any, and
then the classes, the script class before the declared ones.

The block is looked for among the methods of the script class, by name and number of parameters.
The method `run` with the statements is the second one there, behind `main`, and stays there
(`CompiledClass.Follows.run`): methods of the same name that the script declares, and those that
phases add, come after it.
-/
import ScriptOutline.Proofs.Backing
import ScriptOutline.Proofs.Forest

namespace ScriptOutline

/-! ### The method with the statements -/

/-- A method with the heading of `run` has the statements of the script for its body. -/
theorem Method.code_of_heading {m : Method} {statements : List Statement}
    (h : m.heading = (runMethod statements).heading) :
    ∃ written declared, m.code = some ⟨.block written declared, .unwritten⟩ ∧
      written.map Statement.place = statements.map Statement.place := by
  have hcode : m.code.map Statement.layout =
      some ⟨.block (statements.map Statement.place) none, .unwritten⟩ :=
    congrArg Method.code h
  obtain ⟨⟨node, span⟩, hm, hlayout⟩ := Option.map_eq_some_iff.mp hcode
  cases node with
  | block written declared =>
    simp only [Statement.layout, Statement.mk.injEq, StatementNode.block.injEq] at hlayout
    obtain ⟨⟨hplaces, -⟩, rfl⟩ := hlayout
    exact ⟨written, declared, hm, hplaces⟩
  | _ => simp [Statement.layout, Statement.place] at hlayout

theorem Method.hasSignature_heading (m : Method) (name : String) (arity : Nat) :
    m.heading.hasSignature name arity = m.hasSignature name arity := by
  simp only [hasSignature, heading, List.length_map]

/-- The methods of a script class start with `main` and `run`, and a search for a method `run`
without parameters ends at the latter. -/
theorem CompiledClass.Follows.run {c : CompiledClass} {unitName : String} {s : Script}
    (h : c.Follows (s.classPlan unitName)) :
    ∃ run, c.methods[1]? = some run ∧ run.heading = (runMethod s.statements).heading ∧
      c.methods.find? (·.hasSignature "run" 0) = some run := by
  obtain ⟨added, hmethods⟩ := h.methods
  obtain ⟨main, others, hothers, hmain, hrest⟩ := List.map_eq_cons_iff.mp hmethods.symm
  obtain ⟨run, rest, rfl, hrun, -⟩ := List.map_eq_cons_iff.mp hrest
  refine ⟨run, by rw [hothers]; rfl, hrun, ?_⟩
  have hnot : main.hasSignature "run" 0 = false := by
    rw [← Method.hasSignature_heading, hmain]
    simp [Method.heading, mainMethod, Method.generated, Method.hasSignature]
  have hyes : run.hasSignature "run" 0 = true := by
    rw [← Method.hasSignature_heading, hrun]
    simp [Method.heading, runMethod, Method.generated, Method.hasSignature]
  simp only [hothers, List.find?_cons, hnot, hyes]

/-- A block has one node. -/
theorem Statement.outline_block (labels : LabelMapping) (statements : List Statement)
    (declared : Option (List String)) (span : Span) :
    ∃ tree, Statement.outline labels ⟨.block statements declared, span⟩ = [tree] := by
  rw [Statement.outline_eq, Part.forest_eq]
  exact ⟨_, if_neg Bool.false_ne_true⟩

/-! ### Modules -/

namespace CompiledModule

variable {m : CompiledModule} {unitName : String} {s : Script}

/-- The names of the classes, and which of them is the script class. -/
theorem Follows.classNames (h : m.Follows unitName s) :
    (m.classes.map fun c => (c.name, c.isScript)) =
      (if s.statements = [] ∧ s.methods = [] ∧ s.classes ≠ [] then []
        else [(scriptClassName unitName, true)]) ++ s.classes.map fun d => (d.name, false) := by
  have hnames : List.Forall₂ (· = ·) (m.classes.map fun c => (c.name, c.isScript))
      ((s.plans unitName).map fun plan => (plan.name, plan.isScript)) := by
    rw [List.forall₂_map_left_iff, List.forall₂_map_right_iff]
    exact List.Forall₂.imp (fun _ _ hc => Prod.ext hc.name hc.isScript) h
  rw [List.forall₂_eq_eq_eq] at hnames
  simp only [hnames, Script.plans, Script.classPlan, ClassDeclaration.plan, List.map_append,
    apply_ite (List.map _), List.map_cons, List.map_nil, List.map_map, Function.comp_def]

/-- The script class comes first.  There may be none if there are no statements. -/
theorem Follows.scriptClass (h : m.Follows unitName s) :
    s.statements = [] ∧ m.scriptClass = none ∨
      ∃ c, m.classes[0]? = some c ∧ m.scriptClass = some c ∧ c.Follows (s.classPlan unitName) := by
  rw [Follows, Script.plans] at h
  split at h
  · next hnone =>
    rw [List.nil_append, List.forall₂_map_right_iff] at h
    have hdeclared : ∀ c ∈ m.classes, c.isScript = false :=
      ((List.forall₂_and_left _ _).mp (h.imp fun _ _ hc => ⟨hc.isScript, hc⟩)).1
    exact .inl ⟨hnone.1, List.find?_eq_none.mpr fun c hc => by simp [hdeclared c hc]⟩
  · obtain ⟨c, classes, hc, -, hclasses⟩ := List.forall₂_cons_right_iff.mp h
    refine .inr ⟨c, by rw [hclasses]; rfl, ?_, hc⟩
    have hscript : c.isScript = true := hc.isScript
    simp only [CompiledModule.scriptClass, hclasses, List.find?_cons, hscript]

/-- Without statements there is nothing to show before the classes. -/
theorem Follows.topLevelOutline_eq_nil (h : m.Follows unitName s) (hs : s.statements = [])
    (labels : LabelMapping) : m.topLevelOutline labels = [] := by
  rw [topLevelOutline, statementBlock]
  rcases h.scriptClass with ⟨-, hnone⟩ | ⟨c, -, hc, hfollows⟩
  · rw [hnone]
    rfl
  · obtain ⟨run, -, hrun, hfind⟩ := hfollows.run
    obtain ⟨written, declared, hcode, hplaces⟩ := run.code_of_heading hrun
    obtain rfl : written = [] := by simpa [hs] using hplaces
    simp only [hc, Option.bind_eq_bind, Option.bind_some, hfind, hcode]

/-- Statements are shown as the block below the method `run` of the script class. -/
theorem Follows.topLevelOutline (h : m.Follows unitName s) (hs : s.statements ≠ [])
    (labels : LabelMapping) :
    ∃ c run block tree, m.classes[0]? = some c ∧ c.methods[1]? = some run ∧
      run.heading = (runMethod s.statements).heading ∧ run.code = some block ∧
      m.statementBlock = some block ∧ block.outline labels = [tree] ∧
      m.topLevelOutline labels = [tree] ∧ (run.outline labels).children = [tree] := by
  rcases h.scriptClass with ⟨hnil, -⟩ | ⟨c, hfirst, hc, hfollows⟩
  · exact absurd hnil hs
  · obtain ⟨run, hsecond, hrun, hfind⟩ := hfollows.run
    obtain ⟨written, declared, hcode, hplaces⟩ := run.code_of_heading hrun
    have hblock : m.statementBlock = some ⟨.block written declared, .unwritten⟩ := by
      simp [statementBlock, hc, hfind, hcode]
    obtain ⟨tree, htree⟩ := Statement.outline_block labels written declared .unwritten
    refine ⟨c, run, _, tree, hfirst, hsecond, hrun, hcode, hblock, htree, ?_, ?_⟩
    · cases written with
      | nil => exact absurd (by simpa using hplaces.symm) hs
      | cons first rest =>
        rw [CompiledModule.topLevelOutline, hblock]
        exact htree
    · show codeOutline labels run.code = [tree]
      rw [hcode]
      exact htree

end CompiledModule

/-! ### Sessions -/

namespace Session

/-- The outline that a session answers, whatever it has been asked before.  The root has the
number of the source.  Before conversion nothing is below it.  After that the block of the
top-level statements comes first, if there are any, and then every class: the script class, if
there is top-level code or nothing else, and the declared classes in their order.  Below a class
stand the categories that have members, with one node for every member.  The block is the body of
the method `run` that was made for it, the second method of the script class, and the same tree
stands below that method. -/
theorem compile_layout (labels : LabelMapping) (earlier : List (String × Phase))
    (source : String) (phase : Phase) (root : Outline)
    (h : (((new labels).afterAll earlier).compile source phase).2 = .ok root) :
    root.label = "Script" ++ toString (earlier.length + 1) ∧
    (¬ .conversion ≤ phase → root.children = []) ∧
    (.conversion ≤ phase → ∃ script m, Script.parse source = .ok script ∧
      ((Compilation.new root.label source : Compilation Unit).compile phase).1.module = some m ∧
      (m.classes.map fun c => (c.name, c.isScript)) =
        (if script.statements = [] ∧ script.methods = [] ∧ script.classes ≠ [] then []
          else [(scriptClassName root.label, true)]) ++
        script.classes.map (fun d => (d.name, false)) ∧
      (∀ c ∈ m.classes, (c.outline labels).children =
        ((c.categories labels).filter fun (_, members) => !members.isEmpty).map
          fun (category, members) => .ofLabel category members) ∧
      ∃ blocks, root.children = blocks ++ m.classes.map (·.outline labels) ∧
        (script.statements = [] → blocks = []) ∧
        (script.statements ≠ [] → ∃ c run block tree, blocks = [tree] ∧
          m.classes[0]? = some c ∧ c.methods[1]? = some run ∧
          run.heading = (runMethod script.statements).heading ∧ run.code = some block ∧
          m.statementBlock = some block ∧ block.outline labels = [tree] ∧
          (run.outline labels).children = [tree])) := by
  obtain ⟨hcount, hlabels⟩ := (new labels).afterAll_count earlier
  have hname : unitName (((new labels).afterAll earlier).count + 1) =
      "Script" ++ toString (earlier.length + 1) := by
    rw [hcount, new, Nat.zero_add, unitName]
  have hanswer := compile_answer (α := Unit) ((new labels).afterAll earlier) source phase
  rw [h, hname, hlabels] at hanswer
  rcases hcompile : (Compilation.new ("Script" ++ toString (earlier.length + 1)) source :
    Compilation Unit).compile phase with ⟨c, error | answers⟩
  · rw [hcompile] at hanswer
    cases hanswer
  · rw [hcompile] at hanswer
    have hroot : root = .ofLabel ("Script" ++ toString (earlier.length + 1)) (c.outlines labels) :=
      Except.ok.inj hanswer
    have hlabel : root.label = "Script" ++ toString (earlier.length + 1) := by rw [hroot]; rfl
    have hchildren : root.children = c.outlines labels := by rw [hroot]; rfl
    refine ⟨hlabel, fun hearly => ?_, fun hlate => ?_⟩
    · rw [hchildren, Compilation.outlines, Compilation.compile_early hearly hcompile]
    · -- everything else is about the module, and is known from what it follows in the script
      obtain ⟨script, m, hscript, hm, hfollows⟩ := Compilation.compile_late hlate hcompile
      rw [hlabel, hcompile, hchildren, Compilation.outlines, hm]
      refine ⟨script, m, hscript, rfl, hfollows.classNames, fun k _ => k.children_outline labels,
        m.topLevelOutline labels, rfl, fun hs => hfollows.topLevelOutline_eq_nil hs labels,
        fun hs => ?_⟩
      obtain ⟨k, run, block, tree, hk, hsecond, hrun, hcode, hblock, htree, htop, hbelow⟩ :=
        hfollows.topLevelOutline hs labels
      exact ⟨k, run, block, tree, htop, hk, hsecond, hrun, hcode, hblock, htree, hbelow⟩

/-- A script that declares methods `main` and `run` of its own, and has a statement `;`. -/
def ownRun : String :=
  "def main() \x7b 2 \x7d\n def run() \x7b 1 \x7d\n ;\n class A \x7b def run() \x7b 3 \x7d \x7d"

/-- The script is the second source, and the first one cannot be read. -/
theorem compile_layout_ownRun :
    ∃ root tree below, (((new .empty).afterAll [("x = (", .conversion)]).compile ownRun
        .classGeneration).2 = .ok root ∧
      root.label = "Script2" ∧ root.children = tree :: below ∧ below.length = 2 := by
  have hok : (((new .empty).afterAll [("x = (", .conversion)]).compile ownRun
      .classGeneration).2.isOk = true := by decide +kernel
  have hparse : ((Script.parse ownRun).toOption.map fun s =>
      (s.statements.length, s.methods.length, s.classes.length)) = some (1, 2, 1) := by
    decide +kernel
  obtain ⟨s, root, hroot⟩ := Compilation.exists_of_isOk hok
  obtain ⟨hlabel, -, hlate⟩ := compile_layout .empty [("x = (", .conversion)] ownRun
    .classGeneration root (congrArg Prod.snd hroot)
  obtain ⟨script, m, hscript, -, hnames, -, blocks, hchildren, -, hshown⟩ := hlate (by decide)
  rw [hscript] at hparse
  obtain ⟨hstatements, -, hclasses⟩ :
      script.statements.length = 1 ∧ script.methods.length = 2 ∧ script.classes.length = 1 := by
    simpa [Except.toOption] using hparse
  have hne : script.statements ≠ [] := List.ne_nil_of_length_pos (by omega)
  obtain ⟨-, -, -, tree, rfl, -⟩ := hshown hne
  refine ⟨root, tree, _, congrArg Prod.snd hroot, hlabel, hchildren, ?_⟩
  have hlength := congrArg List.length hnames
  simpa [hne, hclasses] using hlength

end Session

end ScriptOutline
