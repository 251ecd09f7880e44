/-
ScriptOutline/Proofs/SessionOutline.lean

What a session answers.  The outline of a source grows class by class; the first class brings
the top-level statements along and sets the mark that keeps the others from doing so
(`Growth.root_fold_addClass`).  So the answer shows the module that a compilation of its own
makes of the source (`Session.compile_answer`): of what the session has done before, only the
number in the name is left.

A call leaves an outline behind in the session, handed out or begun, and the mark set or not.  No
later call looks at them: every call finds the session as one that is new except for its count
(`Session.compile_countingFrom`), and leaves only the count and the labels to the next one
(`Session.compile_count`).  So the calls of a whole history are independent
(`Session.history_independent`).
-/
import ScriptOutline.Proofs.Progression
import ScriptOutline.Session

namespace ScriptOutline

/-! ### Growth -/

/-- The outlines of a module: the top-level statements, and then the classes. -/
def CompiledModule.outlines (labels : LabelMapping) (m : CompiledModule) : List Outline :=
  m.topLevelOutline labels ++ m.classes.map (CompiledClass.outline labels)

/-- Without a class there are no top-level statements. -/
theorem CompiledModule.outlines_of_no_class {labels : LabelMapping} {m : CompiledModule}
    (h : m.classes = []) : m.outlines labels = [] := by
  rw [outlines, topLevelOutline, statementBlock, scriptClass, h]
  rfl

namespace Growth

/-- Once the top-level statements have been passed, only classes are added. -/
theorem fold_addClass_of_shown (labels : LabelMapping) (m : CompiledModule)
    (classes : List CompiledClass) {g : Growth} (h : g.topLevelShown = true) :
    ((classes.map (addClass labels m)).foldl (fun g step => step g) g).root =
      ⟨g.root.label, g.root.rows,
        g.root.children ++ classes.map (CompiledClass.outline labels)⟩ := by
  induction classes generalizing g with
  | nil =>
    rw [List.map_nil, List.map_nil, List.foldl_nil, List.append_nil]
    cases g.root
    rfl
  | cons c classes ih =>
    rw [List.map_cons, List.foldl_cons, ih rfl, addClass, if_pos h, List.map_cons,
      List.nil_append, List.append_assoc, List.singleton_append]

/-- An outline to which the classes of a module have been added. -/
theorem root_fold_addClass (labels : LabelMapping) (m : CompiledModule) (name : String) :
    ((m.classes.map (addClass labels m)).foldl (fun g step => step g) (start name)).root =
      .ofLabel name (m.outlines labels) := by
  cases hclasses : m.classes with
  | nil =>
    rw [CompiledModule.outlines_of_no_class hclasses]
    rfl
  | cons c classes =>
    rw [List.map_cons, List.foldl_cons, fold_addClass_of_shown labels m classes rfl,
      CompiledModule.outlines, hclasses, List.map_cons]
    have hroot : (addClass labels m c (start name)).root =
        .ofLabel name (m.topLevelOutline labels ++ [c.outline labels]) := rfl
    rw [hroot, Outline.ofLabel, Outline.ofLabel, List.append_assoc, List.singleton_append]

end Growth

/-! ### Sessions -/

namespace Compilation

variable {α β : Type}

/-- The outlines of the module, if there is one. -/
def outlines (labels : LabelMapping) (c : Compilation α) : List Outline :=
  match c.module with
  | none => []
  | some m => m.outlines labels

/-- Other operations answer other values. -/
theorem compile_withOperations (c : Compilation α)
    (operations : List (CompiledModule → CompiledClass → β)) (target : Phase) :
    (c.withOperations operations).compile target =
      let (c', answers) := c.compile target
      (c'.withOperations operations,
        answers.map fun _ => (c'.withOperations operations).visits) := by
  rw [compile, compile, ← Phase.upTo, performAll_withOperations]
  obtain ⟨c', error | _⟩ := c.performAll target.upTo <;> rfl

end Compilation

/-- The outline that has grown when the classes of the module have been added to it. -/
theorem Compilation.root_fold_visits {α : Type} (labels : LabelMapping) (c : Compilation α)
    (name : String) :
    ((c.withOperations [Growth.addClass labels]).visits.foldl (fun g step => step g)
      (Growth.start name)).root = .ofLabel name (c.outlines labels) := by
  rw [visits, withOperations, outlines]
  cases c.module with
  | none => rfl
  | some m =>
    simp only [List.flatMap_cons, List.flatMap_nil, List.append_nil]
    exact Growth.root_fold_addClass labels m name

/-- A session answers with the outlines of the module that a compilation of its own makes. -/
theorem Session.compile_answer {α : Type} (s : Session) (source : String) (phase : Phase) :
    (s.compile source phase).2 =
      let (c, answers) :=
        (Compilation.new (unitName (s.count + 1)) source : Compilation α).compile phase
      answers.map fun _ => .ofLabel (unitName (s.count + 1)) (c.outlines s.labels) := by
  have hother := Compilation.compile_withOperations
    (Compilation.new (unitName (s.count + 1)) source : Compilation α)
    [Growth.addClass s.labels] phase
  have hcompile : (Compilation.new (unitName (s.count + 1)) source).addOperation
      (Growth.addClass s.labels) = (Compilation.new (unitName (s.count + 1)) source :
        Compilation α).withOperations [Growth.addClass s.labels] := rfl
  rw [compile, hcompile, hother]
  obtain ⟨c, error | answers⟩ :=
    (Compilation.new (unitName (s.count + 1)) source : Compilation α).compile phase
  · rfl
  · exact congrArg Except.ok (c.root_fold_visits s.labels _)

/-! ### Calls on one session -/

namespace Session

/-- The session after some sources, each compiled to a phase. -/
def afterAll (s : Session) (calls : List (String × Phase)) : Session :=
  calls.foldl (fun s (source, phase) => (s.compile source phase).1) s

theorem compile_count (s : Session) (source : String) (phase : Phase) :
    (s.compile source phase).1.count = s.count + 1 ∧
      (s.compile source phase).1.labels = s.labels := by
  rw [compile]
  dsimp only
  split <;> exact ⟨rfl, rfl⟩

/-- Of all that a session has done, later sources see only how much it was. -/
theorem afterAll_count (s : Session) (calls : List (String × Phase)) :
    (s.afterAll calls).count = s.count + calls.length ∧ (s.afterAll calls).labels = s.labels := by
  induction calls generalizing s with
  | nil => exact ⟨rfl, rfl⟩
  | cons call calls ih =>
    obtain ⟨hcount, hlabels⟩ := s.compile_count call.1 call.2
    obtain ⟨hcounts, hlabelss⟩ := ih (s.compile call.1 call.2).1
    refine ⟨?_, hlabelss.trans hlabels⟩
    rw [List.length_cons, ← Nat.add_assoc, Nat.add_right_comm, ← hcount]
    exact hcounts

/-- A session that is new, except that it has counted some sources. -/
def countingFrom (labels : LabelMapping) (count : Nat) : Session := { new labels with count }

/-- What has grown before a call makes no difference, neither to the answer nor to the session
that is left. -/
theorem compile_countingFrom (s : Session) (source : String) (phase : Phase) :
    s.compile source phase = (countingFrom s.labels s.count).compile source phase := rfl

/-- The outcomes of calls made one after the other: the session after each, and its answer. -/
def history (s : Session) :
    List (String × Phase) → List (Session × Except CompileError Outline)
  | [] => []
  | (source, phase) :: calls =>
    s.compile source phase :: (s.compile source phase).1.history calls

/-- A call finds of the earlier ones only that they have raised the count by one each. -/
theorem history_eq_mapIdx (s : Session) (calls : List (String × Phase)) :
    s.history calls = calls.mapIdx fun i (source, phase) =>
      (countingFrom s.labels (s.count + i)).compile source phase := by
  induction calls generalizing s with
  | nil => rfl
  | cons call calls ih =>
    obtain ⟨source, phase⟩ := call
    obtain ⟨hcount, hlabels⟩ := s.compile_count source phase
    have hrest (i : Nat) : (s.compile source phase).1.count + i = s.count + (i + 1) := by
      rw [hcount, Nat.add_right_comm, Nat.add_assoc]
    rw [history, ih, List.mapIdx_cons]
    simp only [hrest, hlabels]
    exact congrArg (· :: _) (s.compile_countingFrom source phase)

/-- Whatever the earlier calls of a session were and answered, each call has the outcome that it
has on a session that is new except for its count, which the earlier calls have raised by one
each.  Its answer is the error of a compilation of its own, or the outlines of the module that
this compilation makes. -/
theorem history_independent (s : Session) (calls : List (String × Phase)) :
    (s.history calls = calls.mapIdx fun i (source, phase) =>
      (countingFrom s.labels (s.count + i)).compile source phase) ∧
    (s.history calls).map Prod.snd = calls.mapIdx fun i (source, phase) =>
      let name := unitName (s.count + i + 1)
      let (c, answers) := (Compilation.new name source : Compilation Unit).compile phase
      answers.map fun _ => .ofLabel name (c.outlines s.labels) := by
  refine ⟨s.history_eq_mapIdx calls, ?_⟩
  refine List.ext_getElem? fun i => ?_
  rw [history_eq_mapIdx, List.getElem?_map, List.getElem?_mapIdx, List.getElem?_mapIdx,
    Option.map_map]
  congr 1
  funext ⟨source, phase⟩
  exact compile_answer (countingFrom s.labels (s.count + i)) source phase

end Session

end ScriptOutline
