/-
ScriptOutline/Proofs/Backing.lean

Properties and their fields in compiled modules.  A property refers to its field by a position
among the fields of the class.  The position is right when conversion sets it, and no later
phase moves a field (`Compilation.compile_late`), so in every module the field at that position
is the one that was made for the property.

The outline of a class reads initial values of properties at that position.  So what stands
below a property is what stands below the field of its name (`CompiledClass.Backed.mirrorsFields`).
-/
import ScriptOutline.Proofs.Conversion
import ScriptOutline.Proofs.SessionOutline

namespace ScriptOutline

/-! ### Categories -/

/-- The categories of members, and the outlines of the members in each. -/
def CompiledClass.categories (labels : LabelMapping) (c : CompiledClass) :
    List (String × List Outline) :=
  [("Constructors", c.constructors.map (·.outline labels)),
    ("Methods", c.methods.map (·.outline labels)),
    ("Fields", c.fields.map (·.outline labels)),
    ("Properties", c.properties.map (·.outline labels c)),
    ("Annotations", c.annotations.map (·.outline labels))]

/-- Below a class stand the categories that have members. -/
theorem CompiledClass.children_outline (labels : LabelMapping) (c : CompiledClass) :
    (c.outline labels).children =
      ((c.categories labels).filter fun (_, members) => !members.isEmpty).map
        fun (category, members) => .ofLabel category members := by
  have hcategory (name : String) (members : List Outline) :
      categoryOutline name members =
        ([(name, members)].filter fun (_, members) => !members.isEmpty).map
          fun (category, members) => .ofLabel category members := by
    cases members <;> rfl
  simp only [outline, Outline.ofNode, hcategory, ← List.map_append, ← List.filter_append]
  rfl

/-! ### Nodes by name -/

/-- The rows give the node that name. -/
def Outline.IsNamed (t : Outline) (name : String) : Prop := Row.ofString "name" name ∈ t.rows

theorem Field.isNamed_outline {labels : LabelMapping} {f : Field} {name : String} :
    (f.outline labels).IsNamed name ↔ name = f.name := by
  simp [Outline.IsNamed, outline, Outline.ofNode, sortRows, rows, Row.ofString, Row.ofType,
    Row.ofSpan]

theorem Property.isNamed_outline {labels : LabelMapping} {c : CompiledClass} {p : Property}
    {name : String} : (p.outline labels c).IsNamed name ↔ name = p.name := by
  simp [Outline.IsNamed, outline, Outline.ofNode, sortRows, rows, Row.ofString, Row.ofType,
    Row.ofSpan]

/-- Below each property stands what stands below the field of the same name. -/
def Outline.MirrorsFields (t : Outline) : Prop :=
  ∀ properties ∈ t.children, properties.label = "Properties" →
    ∃ fields ∈ t.children, fields.label = "Fields" ∧
      ∀ p ∈ properties.children, (∃ name, p.IsNamed name) ∧ ∀ name, p.IsNamed name →
        (∃ f ∈ fields.children, f.IsNamed name) ∧
          ∀ f ∈ fields.children, f.IsNamed name → f.children = p.children

namespace CompiledClass

variable {labels : LabelMapping} {c : CompiledClass}

/-- The nodes of a category below a class. -/
theorem mem_children_outline {t : Outline} :
    t ∈ (c.outline labels).children ↔
      ∃ category members, (category, members) ∈ c.categories labels ∧ members ≠ [] ∧
        t = .ofLabel category members := by
  rw [children_outline]
  have hisEmpty (members : List Outline) : (!members.isEmpty) = true ↔ members ≠ [] := by
    simp
  simp only [List.mem_map, List.mem_filter, Prod.exists, hisEmpty, and_assoc, eq_comm (a := t)]

/-- The property shows the initial value of its field. -/
theorem children_outline_property {p : Property} {f : Field} (hf : c.propertyField p = some f) :
    (p.outline labels c).children = (f.outline labels).children := by
  show initialOutline labels ((c.propertyField p).bind Field.initial) =
    initialOutline labels f.initial
  rw [hf]
  rfl

theorem Backed.mirrorsFields (h : c.Backed) : (c.outline labels).MirrorsFields := by
  intro properties hproperties hlabel
  obtain ⟨category, members, hcategory, hmembers, rfl⟩ := mem_children_outline.mp hproperties
  obtain rfl : members = c.properties.map (Property.outline labels c) := by
    obtain rfl : category = "Properties" := hlabel
    simpa [categories] using hcategory
  have hfields : c.fields.map (Field.outline labels) ≠ [] := by
    obtain ⟨p, hp⟩ := List.exists_mem_of_ne_nil _ (mt (congrArg (List.map _)) hmembers)
    obtain ⟨f, hf, -⟩ := h.field p hp
    exact List.ne_nil_of_mem (List.mem_map_of_mem (List.mem_of_getElem? hf))
  refine ⟨.ofLabel "Fields" (c.fields.map (Field.outline labels)),
    mem_children_outline.mpr ⟨_, _, by simp [categories], hfields, rfl⟩, rfl, ?_⟩
  refine List.forall_mem_map.mpr fun p hp => ?_
  refine ⟨⟨p.name, Property.isNamed_outline.mpr rfl⟩, fun name hname => ?_⟩
  obtain rfl := Property.isNamed_outline.mp hname
  obtain ⟨f, hf, hbacks⟩ := h.field p hp
  have hmem : f ∈ c.fields := List.mem_of_getElem? hf
  refine ⟨⟨f.outline labels, List.mem_map_of_mem hmem, ?_⟩, List.forall_mem_map.mpr ?_⟩
  · exact Field.isNamed_outline.mpr hbacks.name.symm
  · intro f' hf' hnamed
    have hname : f'.name = f.name := (Field.isNamed_outline.mp hnamed).symm.trans hbacks.name.symm
    obtain rfl : f' = f := List.inj_on_of_nodup_map h.fieldNames hf' hmem hname
    exact (children_outline_property hf).symm

end CompiledClass

/-! ### Compiled modules -/

namespace Compilation

/-- In every class of a module that has been compiled to conversion or beyond, the fields are
those that are declared as fields or properties, in the order of declaration.  No two fields and
no two properties have the same name, and every property has the private field of its name for
its own, which is also the field to be found under that name.  In the outline of a session, what
stands below a property stands below the field of its name. -/
theorem compile_propertyFields {α : Type} (name source : String) (phase : Phase)
    (hphase : .conversion ≤ phase) (c : Compilation α) (answers : List α)
    (h : (new name source).compile phase = (c, .ok answers)) :
    ∃ script m, Script.parse source = .ok script ∧ c.module = some m ∧
      List.Forall₂ (fun k (plan : ClassPlan) => k.name = plan.name ∧
        k.fields.map Field.heading = plan.fields.map Field.heading)
        m.classes (script.plans name) ∧
      (∀ k ∈ m.classes, (k.fields.map Field.name).Nodup ∧
        (k.properties.map Property.name).Nodup ∧
        ∀ p ∈ k.properties, p.fieldIndex < k.fields.length ∧
          ∃ f, k.propertyField p = some f ∧ f.Backs p k.name ∧ k.findField p.name = some f) ∧
      ∀ s : Session, Session.unitName (s.count + 1) = name →
        ∃ root, (s.compile source phase).2 = .ok root ∧
          root.children = m.topLevelOutline s.labels ++ m.classes.map (·.outline s.labels) ∧
          ∀ k ∈ m.classes, (k.outline s.labels).MirrorsFields := by
  obtain ⟨script, m, hscript, hm, hfollows⟩ := compile_late hphase h
  have hbacked : ∀ k ∈ m.classes, k.Backed :=
    ((List.forall₂_and_left _ _).mp (hfollows.imp fun _ _ hk => ⟨hk.backed, hk⟩)).1
  refine ⟨script, m, hscript, hm, hfollows.imp fun _ _ hk => ⟨hk.name, hk.fields⟩, ?_, ?_⟩
  -- what is said of the classes, and what a session shows of them, both follow from the backing
  · intro k hk
    refine ⟨(hbacked k hk).fieldNames, (hbacked k hk).propertyNames, fun p hp => ?_⟩
    obtain ⟨f, hf, hbacks⟩ := (hbacked k hk).field p hp
    exact ⟨(List.getElem?_eq_some_iff.mp hf).1, f, hf, hbacks, (hbacked k hk).findField hp hf⟩
  · rintro s rfl
    have hanswer := s.compile_answer (α := α) source phase
    rw [h] at hanswer
    refine ⟨_, hanswer, ?_, fun k hk => (hbacked k hk).mirrorsFields⟩
    simp only [Compilation.outlines, hm]
    rfl

/-- A class whose fields and properties take turns, and a statement. -/
def turns : String :=
  "class A \x7b private int a = 1; def b = 2; public def c; \x7d\n b = 3"

theorem compile_propertyFields_turns :
    ∃ (c : Compilation Unit) (answers : List Unit) (m : CompiledModule),
      (new "Script1" turns).compile .finalization = (c, .ok answers) ∧ c.module = some m ∧
      ∀ k ∈ m.classes, ∀ p ∈ k.properties, ∃ f, k.propertyField p = some f ∧ f.Backs p k.name := by
  have hok : ((new "Script1" turns : Compilation Unit).compile .finalization).2.isOk = true := by
    decide +kernel
  obtain ⟨c, answers, h⟩ := exists_of_isOk hok
  obtain ⟨script, m, -, hm, -, hclasses, -⟩ :=
    compile_propertyFields "Script1" turns .finalization (by decide) c answers h
  refine ⟨c, answers, m, h, hm, fun k hk p hp => ?_⟩
  obtain ⟨-, f, hf, hbacks, -⟩ := (hclasses k hk).2.2 p hp
  exact ⟨f, hf, hbacks⟩

end Compilation

end ScriptOutline
