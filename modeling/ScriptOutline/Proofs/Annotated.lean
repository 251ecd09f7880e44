/-
ScriptOutline/Proofs/Annotated.lean

What the annotations of a script stand for.  The annotations of a class and of its members are
put in one table (`AnnotationTable`): those of the class, and for every kind of member a list for
each member.  A property has none of its own; those written on it are on the field that holds its
value.

Resolution goes into the annotations of the class only.  In a module of a script that compiles,
from semantic analysis on (`Compilation.compile_annotations`), an annotation of a class has the
class that its name stands for, declared, built in or dotted, and none if it stands for nothing;
an annotation of a field, a constructor or a method is as it was read, and what is read stands for
no class yet (`Grammar.unresolved_annotationUse`).  Members that are generated have no annotations.
-/
import ScriptOutline.Proofs.Offence
import ScriptOutline.Proofs.Passage
import ScriptOutline.Proofs.TidyScript

namespace ScriptOutline

/-! ### Tables -/

/-- The annotations of a class, and those of its members, one list for each member. -/
structure AnnotationTable where
  own : List Annotation
  fields : List (List Annotation)
  constructors : List (List Annotation)
  methods : List (List Annotation)

/-- The annotations of all members, whatever their kind. -/
def AnnotationTable.ofMembers (t : AnnotationTable) : List (List Annotation) :=
  t.fields ++ t.constructors ++ t.methods

/-- The annotations written in a class declaration. -/
def ClassDeclaration.annotationTable (d : ClassDeclaration) : AnnotationTable where
  own := d.annotations
  fields := (d.members.filterMap (Member.stored d.name)).map Field.annotations
  constructors := (d.members.filterMap Member.constructor?).map Constructor.annotations
  methods := (d.members.filterMap Member.method?).map Method.annotations

/-- The annotations of a class of a module. -/
def CompiledClass.annotationTable (c : CompiledClass) : AnnotationTable where
  own := c.annotations
  fields := c.fields.map Field.annotations
  constructors := c.constructors.map Constructor.annotations
  methods := c.methods.map Method.annotations

/-- The annotations written for the classes of a script.  The script class, if there is one, has
two constructors and the methods `main` and `run` in front of the methods at the top level. -/
def Script.annotationTables (s : Script) : List AnnotationTable :=
  (if s.statements = [] ∧ s.methods = [] ∧ s.classes ≠ [] then []
    else [⟨[], [], [[], []], [] :: [] :: s.methods.map Method.annotations⟩]) ++
    s.classes.map ClassDeclaration.annotationTable

/-! ### What is read -/

/-- The annotations stand for no class yet. -/
def Unresolved (annotations : List Annotation) : Prop :=
  ∀ a ∈ annotations, a.type.resolved = none

/-- All annotations of a piece, and of the members in it, stand for no class yet. -/
def Piece.Unresolved : Piece → Prop
  | .method m => ScriptOutline.Unresolved m.annotations
  | .declaration d => ∀ as ∈ d.annotationTable.ofMembers, ScriptOutline.Unresolved as
  | _ => True

namespace Grammar

open ScriptOutline.Grammar.Parser

variable {g : Inner}

theorem unresolved_classType : Yields (classType g) fun t => t.resolved = none :=
  .skip fun _ => .skip fun _ => .skip fun _ => .pure rfl

theorem unresolved_annotationUse : Yields (annotationUse g) fun a => a.type.resolved = none := by
  refine Yields.spanned_bind (.skip fun _ => ?_)
  refine unresolved_classType.bind fun type htype => .skip fun members => ?_
  exact .pure fun span => .pure htype

theorem unresolved_annotations : Yields (many (annotationUse g)) Unresolved :=
  unresolved_annotationUse.many

theorem unresolved_method : Yields (method g) fun m => Unresolved m.annotations := by
  refine Yields.spanned_bind (unresolved_annotations.bind fun annotations ha => ?_)
  refine .skip fun modifiers => .skip fun type => .skip fun name => .skip fun parameters => ?_
  exact .skip fun code => .pure fun span => .pure ha

/-- The annotations that a member declares. -/
def annotationsOf : Member → List Annotation
  | .field f | .property f => f.annotations
  | .constructor _ c => c.annotations
  | .method m => m.annotations

theorem unresolved_member : Yields (member g) fun m => Unresolved (annotationsOf m) := by
  have hmember : Yields (orElse (orElse (Member.method <$> method g) (constructor g)) (field g))
      fun m => Unresolved (annotationsOf m) := by
    refine Yields.orElse (Yields.orElse (.map unresolved_method) ?_) ?_
    · refine Yields.spanned_bind (unresolved_annotations.bind fun annotations ha => ?_)
      refine .skip fun modifiers => .skip fun name => .skip fun parameters => .skip fun code => ?_
      exact .pure fun span => .pure ha
    · refine Yields.spanned_bind (unresolved_annotations.bind fun annotations ha => ?_)
      refine .skip fun modifiers => .skip fun type => .skip fun name => .skip fun initial => ?_
      refine .pure fun span => ?_
      dsimp only
      -- with a visibility it is a field, without one a property
      split <;> exact .pure ha
  exact hmember.bind fun _ hm => .skip fun _ => .pure hm

theorem unresolved_classDeclaration :
    Yields (classDeclaration g) fun d => (Piece.declaration d).Unresolved := by
  refine Yields.spanned_bind (.skip fun annotations => .skip fun modifiers => .skip fun _ => ?_)
  refine .skip fun name => .skip fun superClass => .skip fun interfaces => ?_
  refine unresolved_member.many.between.bind fun members hm => .pure fun span => .pure ?_
  simp only [Piece.Unresolved, AnnotationTable.ofMembers, ClassDeclaration.annotationTable,
    List.forall_mem_append, List.forall_mem_map]
  refine ⟨⟨fun f hf => ?_, fun x hx => ?_⟩, fun x hx => ?_⟩
  · obtain ⟨member, hmember, hstored⟩ := List.mem_filterMap.mp hf
    have ha := hm member hmember
    cases member <;> cases hstored <;> exact ha
  · obtain ⟨member, hmember, hdeclared⟩ := List.mem_filterMap.mp hx
    have ha := hm member hmember
    cases member <;> cases hdeclared
    exact ha
  · obtain ⟨member, hmember, hdeclared⟩ := List.mem_filterMap.mp hx
    have ha := hm member hmember
    cases member <;> cases hdeclared
    exact ha

theorem unresolved_item : Yields (item g) fun i => i.piece.Unresolved := by
  refine Yields.orElse (Yields.orElse (.map unresolved_classDeclaration) (.map unresolved_method))
    (.map ?_)
  exact (Yields.any _).mono fun _ _ => trivial

end Grammar

/-! ### Classes -/

namespace CompiledClass

variable {c : CompiledClass} {declared : List String} {t : AnnotationTable}

/-- The class has the annotations of the table: its own ones with the classes that their names
stand for, those of its members as they are in the table.  What is behind the members of the table
has none. -/
structure Carries (declared : List String) (c : CompiledClass) (t : AnnotationTable) : Prop where
  own : c.annotations =
    t.own.map fun a =>
      { a with type := { a.type with resolved := resolveName declared a.type.name } }
  fields : c.fields.map Field.annotations = t.fields
  constructors : ∃ n, c.constructors.map Constructor.annotations =
    t.constructors ++ List.replicate n []
  methods : ∃ n, c.methods.map Method.annotations = t.methods ++ List.replicate n []

/-- Resolution looks at the annotations of the class, and at no others. -/
theorem carries_bound (declared : List String) (c : CompiledClass) :
    (c.bound declared).Carries declared c.annotationTable := by
  rw [bound_eq]
  refine ⟨rfl, ?_, ⟨0, ?_⟩, ⟨0, ?_⟩⟩
  · show (c.fields.map (Field.bound _)).map Field.annotations = c.fields.map Field.annotations
    rw [List.map_map]
    rfl
  · show (c.constructors.map (Constructor.bound _)).map Constructor.annotations =
      c.constructors.map Constructor.annotations ++ []
    rw [List.map_map, List.append_nil]
    rfl
  · show (c.methods.map (Method.bound _)).map Method.annotations =
      c.methods.map Method.annotations ++ []
    rw [List.map_map, List.append_nil]
    rfl

/-- Accessors have no annotations. -/
theorem annotations_missingAccessors (p : Property) (owner : String) (methods : List Method) :
    ∀ m ∈ p.missingAccessors owner methods, m.annotations = [] :=
  Property.forall_mem_missingAccessors (P := fun m => m.annotations = []) rfl rfl methods

/-- Methods without annotations, behind those of the table. -/
theorem replicate_append {α : Type} {written : List (List α)} {xs ys : List (List α)} {n : Nat}
    (hxs : xs = written ++ List.replicate n []) (hys : ∀ as ∈ ys, as = []) :
    ∃ n, xs ++ ys = written ++ List.replicate n [] := by
  refine ⟨n + ys.length, ?_⟩
  rw [hxs, List.append_assoc, List.replicate_add, ← List.eq_replicate_of_mem hys]

theorem Carries.canonical (h : c.Carries declared t) : c.canonical.Carries declared t := by
  obtain ⟨n, hconstructors⟩ := h.constructors
  obtain ⟨k, hmethods⟩ := h.methods
  refine ⟨h.own, h.fields, ?_, ?_⟩
  · rw [CompiledClass.canonical]
    dsimp only
    split
    · next hempty =>
      -- there is no constructor, so there is none in the table either
      rw [List.isEmpty_iff.mp hempty, List.map_nil, eq_comm,
        List.append_eq_nil_iff] at hconstructors
      exact ⟨1, by rw [hconstructors.1]; rfl⟩
    · exact ⟨n, hconstructors⟩
  · rw [CompiledClass.canonical]
    dsimp only
    rw [List.map_append]
    refine replicate_append hmethods (List.forall_mem_map.mpr (List.forall_mem_flatMap.mpr ?_))
    intro p _
    exact annotations_missingAccessors p c.name c.methods

theorem Carries.infer (h : c.Carries declared t) : c.infer.Carries declared t := by
  obtain ⟨n, hconstructors⟩ := h.constructors
  obtain ⟨k, hmethods⟩ := h.methods
  refine ⟨h.own, ?_, ⟨n, ?_⟩, ⟨k, ?_⟩⟩
  · rw [← h.fields, CompiledClass.infer, List.map_map]
    rfl
  · rw [← hconstructors, CompiledClass.infer, List.map_map]
    rfl
  · rw [← hmethods, CompiledClass.infer, List.map_map]
    rfl

theorem Carries.emit (h : c.Carries declared t) : c.emit.Carries declared t := by
  rw [CompiledClass.emit]
  split
  · exact h
  · obtain ⟨k, hmethods⟩ := h.methods
    refine ⟨h.own, h.fields, h.constructors, ?_⟩
    dsimp only
    split
    · exact ⟨k, hmethods⟩
    · rw [List.map_append]
      exact replicate_append hmethods (List.forall_mem_singleton.mpr rfl)

/-- What is unresolved in the table is unresolved in the class. -/
theorem Carries.unresolved (h : c.Carries declared t)
    (ht : ∀ as ∈ t.ofMembers, Unresolved as) :
    ∀ as ∈ c.annotationTable.ofMembers, Unresolved as := by
  have hnone (n : Nat) : ∀ as ∈ List.replicate n ([] : List Annotation), Unresolved as := by
    intro as has
    rw [List.eq_of_mem_replicate has]
    exact List.forall_mem_nil _
  obtain ⟨n, hconstructors⟩ := h.constructors
  obtain ⟨k, hmethods⟩ := h.methods
  simp only [AnnotationTable.ofMembers, List.forall_mem_append] at ht
  obtain ⟨⟨htf, htc⟩, htm⟩ := ht
  rw [AnnotationTable.ofMembers, annotationTable, h.fields, hconstructors, hmethods]
  simp only [List.forall_mem_append]
  exact ⟨⟨htf, htc, hnone n⟩, htm, hnone k⟩

end CompiledClass

/-! ### Modules -/

/-- Conversion leaves the annotations of all classes as they were read. -/
theorem CompiledModule.annotationTables_ofScript {unitName : String} {s : Script}
    {m : CompiledModule} (h : ofScript unitName s = .ok m) :
    m.classes.map CompiledClass.annotationTable = s.annotationTables := by
  obtain ⟨-, -, rfl⟩ := ofScript_eq_ok_iff.mp h
  rw [Script.annotationTables, Script.sortedClasses, List.map_append, List.map_map]
  congr 1
  split <;> rfl

/-- What is read for a script stands for no class yet. -/
theorem Script.unresolved_annotationTables {source : String} {s : Script}
    (h : Script.parse source = .ok s) :
    ∀ t ∈ s.annotationTables, ∀ as ∈ t.ofMembers, Unresolved as := by
  have hroots : ∀ root ∈ s.roots, root.Unresolved :=
    Script.parse_roots (fun _ => Grammar.unresolved_item) h
  refine List.forall_mem_append.mpr ⟨?_, List.forall_mem_map.mpr fun d hd => ?_⟩
  · split
    · exact List.forall_mem_nil _
    · have hmethods : ∀ m ∈ s.methods, Unresolved m.annotations := fun m hm =>
        hroots (.method m)
          (List.mem_append_left _ (List.mem_append_right _ (List.mem_map_of_mem hm)))
      refine List.forall_mem_singleton.mpr ?_
      simpa [AnnotationTable.ofMembers, Unresolved] using hmethods
  · exact hroots (.declaration d) (List.mem_append_right _ (List.mem_map_of_mem hd))

/-! ### Compilations -/

namespace Compilation

variable {α : Type} {c : Compilation α} {name source : String}

theorem name_completedTo (phase : Phase) (k : CompiledClass) :
    (k.completedTo phase).name = k.name := by
  refine CompiledClass.completedTo_induction (P := fun k' => k'.name = k.name)
    (fun _ h => h) (fun _ h => h) (fun k' h => ?_) rfl phase
  rw [CompiledClass.emit]
  split <;> exact h

/-- From semantic analysis on, the annotations of every class of a script stand for the classes
that their names stand for, and those of its fields, constructors and methods are as they were
read and stand for none.  Nothing generated has annotations. -/
theorem compile_annotations {phase : Phase} {answers : List α}
    (hphase : .semanticAnalysis ≤ phase)
    (h : (new name source : Compilation α).compile phase = (c, .ok answers)) :
    ∃ script m, Script.parse source = .ok script ∧ c.module = some m ∧
      List.Forall₂ (CompiledClass.Carries m.classNames) m.classes script.annotationTables ∧
      ∀ k ∈ m.classes, ∀ as ∈ k.annotationTable.ofMembers, Unresolved as := by
  obtain ⟨script, m₀, m, hscript, hm₀, -, hm, hclasses⟩ := compile_classes hphase h
  have hnames : m.classNames = m₀.classNames := by
    simp only [CompiledModule.classNames, hclasses, List.map_map]
    exact List.map_congr_left fun k _ => name_completedTo phase _
  have hcarries : List.Forall₂ (CompiledClass.Carries m.classNames) m.classes
      script.annotationTables := by
    rw [hclasses, hnames, ← CompiledModule.annotationTables_ofScript hm₀,
      List.forall₂_map_left_iff, List.forall₂_map_right_iff]
    refine List.forall₂_same.mpr fun k _ => ?_
    exact CompiledClass.completedTo_induction
      (P := fun c => c.Carries m₀.classNames k.annotationTable) (fun _ h => h.canonical)
      (fun _ h => h.infer) (fun _ h => h.emit) (k.carries_bound m₀.classNames) phase
  refine ⟨script, m, hscript, hm, hcarries, ?_⟩
  have htables : List.Forall₂ (fun t k => (∀ as ∈ t.ofMembers, Unresolved as) ∧
      CompiledClass.Carries m.classNames k t) script.annotationTables m.classes :=
    (List.forall₂_and_left _ _).mpr ⟨Script.unresolved_annotationTables hscript, hcarries.flip⟩
  have hmembers : List.Forall₂ (fun k t => (∀ as ∈ k.annotationTable.ofMembers, Unresolved as) ∧
      CompiledClass.Carries m.classNames k t) m.classes script.annotationTables :=
    htables.flip.imp fun _ _ h => ⟨h.2.unresolved h.1, h.2⟩
  exact ((List.forall₂_and_left _ _).mp hmembers).1

/-- A class annotated with itself, and all its members annotated with it. -/
def annotatedMembers : String :=
  "@A class A \x7b @A int x; @A A() \x7b \x7d @A def f() \x7b 1 \x7d \x7d"

/-- The names in a list of annotations, with what they stand for. -/
def references (annotations : List Annotation) : List (String × Option String) :=
  annotations.map fun a => (a.type.name, a.type.resolved)

theorem compile_annotations_annotatedMembers :
    ∃ (c : Compilation Unit) (script : Script) (m : CompiledModule),
      (new "Script1" annotatedMembers).compile .semanticAnalysis = (c, .ok []) ∧
      Script.parse annotatedMembers = .ok script ∧ c.module = some m ∧
      List.Forall₂ (CompiledClass.Carries m.classNames) m.classes script.annotationTables ∧
      (m.classes.map fun k => references k.annotations) = [[("A", some "A")]] := by
  obtain ⟨c, m, hc, hm, hshown⟩ := exists_of_passes
    (fun m => (m.classes.map fun k => references k.annotations) = [[("A", some "A")]])
    annotatedMembers .semanticAnalysis (by decide +kernel)
  obtain ⟨script, m', hscript, hm', hcarries, -⟩ := compile_annotations (by decide) hc
  obtain rfl : m = m' := Option.some.inj (hm.symm.trans hm')
  exact ⟨c, script, m, hc, hscript, hm, hcarries, of_decide_eq_true hshown⟩

/-- The class is declared, but the annotations of its members do not stand for it. -/
theorem compile_annotatedMembers :
    ∃ (c : Compilation Unit) (m : CompiledModule),
      (new "Script1" annotatedMembers).compile .semanticAnalysis = (c, .ok []) ∧
      c.module = some m ∧ resolveName m.classNames "A" = some "A" ∧
      (m.classes.map fun k => k.annotationTable.ofMembers.map references) =
        [[[("A", none)], [("A", none)], [("A", none)]]] := by
  obtain ⟨c, m, hc, hm, hshown⟩ := exists_of_passes
    (fun m => resolveName m.classNames "A" = some "A" ∧
      (m.classes.map fun k => k.annotationTable.ofMembers.map references) =
        [[[("A", none)], [("A", none)], [("A", none)]]])
    annotatedMembers .semanticAnalysis (by decide +kernel)
  exact ⟨c, m, hc, hm, of_decide_eq_true hshown⟩

end Compilation

end ScriptOutline
