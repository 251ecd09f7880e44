/-
ScriptOutline/Proofs/Conservation.lean

What the phases after conversion leave as it is.  The heading of a member is the member
without what phases fill in or rewrite: of its code and values only the places are left, of
its types only what was written.  A class keeps another one (`CompiledClass.Keeps`) if it may
be that class after some phases: its fields and properties have the headings they had, one
for one, and its methods start with those it had.

A class is backed (`CompiledClass.Backed`) if every property has a private field of its own
that agrees with it; a class that keeps a backed one is backed.  Each phase after conversion
makes of every class one that keeps it, so a whole compilation does (`performAll_keeps`).
-/
import Mathlib.Data.List.Forall2
import Mathlib.Data.List.Nodup
import ScriptOutline.Proofs.Analysis
import ScriptOutline.Proofs.Progression

namespace ScriptOutline

/-! ### Headings -/

/-- The type as it was written, whatever class it stands for. -/
def TypeRef.asWritten (t : TypeRef) : TypeRef := { t with resolved := none }

/-- The place of an expression. -/
def Expression.place (e : Expression) : Expression := ⟨.empty, e.span, none⟩

/-- The place of a statement. -/
def Statement.place (s : Statement) : Statement := ⟨.empty, s.span⟩

/-- The places of the statements of a block. -/
def Statement.layout : Statement → Statement
  | ⟨.block statements _, span⟩ => ⟨.block (statements.map Statement.place) none, span⟩
  | s => s.place

def Parameter.heading (p : Parameter) : Parameter :=
  { p with type := p.type.asWritten, defaultValue := p.defaultValue.map Expression.place }

def Field.heading (f : Field) : Field :=
  { f with type := f.type.asWritten, initial := f.initial.map Expression.place }

def Property.heading (p : Property) : Property :=
  { p with type := p.type.asWritten, getterName := none, setterName := none }

def Method.heading (m : Method) : Method :=
  { m with
    returnType := m.returnType.asWritten
    parameters := m.parameters.map Parameter.heading
    code := m.code.map Statement.layout
    variableScope := none }

/-! ### Properties and their fields -/

/-- The field holds the value of the property: it is private to the class, and agrees with the
property in everything else that both have. -/
structure Field.Backs (f : Field) (p : Property) (owner : String) : Prop where
  name : f.name = p.name
  span : f.span = p.span
  type : f.type = p.type
  modifiers : f.modifiers = { Modifiers.ofPrivate with
    isStatic := p.modifiers.isStatic, isFinal := p.modifiers.isFinal }
  owner : f.owner = owner

namespace CompiledClass

/-- Fields have different names, and every property has a field of its own. -/
structure Backed (c : CompiledClass) : Prop where
  fieldNames : (c.fields.map Field.name).Nodup
  propertyNames : (c.properties.map Property.name).Nodup
  field : ∀ p ∈ c.properties, ∃ f, c.propertyField p = some f ∧ f.Backs p c.name

/-- Changes of single fields and properties that keep each field with its property. -/
theorem Backed.map {c d : CompiledClass} {onField : Field → Field}
    {onProperty : Property → Property} (h : c.Backed) (hname : d.name = c.name)
    (hfields : d.fields = c.fields.map onField)
    (hproperties : d.properties = c.properties.map onProperty)
    (hfieldName : ∀ f, (onField f).name = f.name)
    (hpropertyName : ∀ p, (onProperty p).name = p.name)
    (hindex : ∀ p, (onProperty p).fieldIndex = p.fieldIndex)
    (hbacks : ∀ f p, f.Backs p c.name → (onField f).Backs (onProperty p) c.name) : d.Backed where
  fieldNames := by
    rw [hfields, List.map_map]
    simpa only [Function.comp_def, hfieldName] using h.fieldNames
  propertyNames := by
    rw [hproperties, List.map_map]
    simpa only [Function.comp_def, hpropertyName] using h.propertyNames
  field := by
    rw [hproperties, hname]
    refine List.forall_mem_map.mpr fun p hp => ?_
    obtain ⟨f, hf, hb⟩ := h.field p hp
    refine ⟨onField f, ?_, hbacks f p hb⟩
    rw [propertyField, hindex, hfields, List.getElem?_map, ← propertyField, hf]
    rfl

/-- The field that is found under the name of a property is the one behind it. -/
theorem Backed.findField {c : CompiledClass} (h : c.Backed) {p : Property} {f : Field}
    (hp : p ∈ c.properties) (hf : c.propertyField p = some f) : c.findField p.name = some f := by
  obtain ⟨f', hf', hbacks⟩ := h.field p hp
  obtain rfl : f' = f := Option.some.inj (hf'.symm.trans hf)
  have hmem : f' ∈ c.fields := List.mem_of_getElem? hf
  cases hfound : c.findField p.name with
  | none =>
    have hnot := List.find?_eq_none.mp hfound f' hmem
    simp [hbacks.name] at hnot
  | some g =>
    have hg : g.name = p.name := by simpa using List.find?_some hfound
    rw [List.inj_on_of_nodup_map h.fieldNames (List.mem_of_find?_eq_some hfound) hmem
      (hg.trans hbacks.name.symm)]

end CompiledClass

/-! ### Classes that keep others -/

namespace CompiledClass

/-- The second class is the first one after some phases. -/
structure Keeps (before after : CompiledClass) : Prop where
  name : after.name = before.name
  isScript : after.isScript = before.isScript
  span : after.span = before.span
  fields : after.fields.map Field.heading = before.fields.map Field.heading
  properties : after.properties.map Property.heading = before.properties.map Property.heading
  methods : before.methods.map Method.heading <+: after.methods.map Method.heading
  backed : before.Backed → after.Backed

theorem Keeps.refl (c : CompiledClass) : c.Keeps c :=
  ⟨rfl, rfl, rfl, rfl, rfl, List.prefix_rfl, id⟩

theorem Keeps.trans {a b c : CompiledClass} (hab : a.Keeps b) (hbc : b.Keeps c) : a.Keeps c where
  name := hbc.name.trans hab.name
  isScript := hbc.isScript.trans hab.isScript
  span := hbc.span.trans hab.span
  fields := hbc.fields.trans hab.fields
  properties := hbc.properties.trans hab.properties
  methods := hab.methods.trans hbc.methods
  backed := hbc.backed ∘ hab.backed

end CompiledClass

/-! ### One phase -/

theorem TypeRef.asWritten_resolve (declared : List String) (t : TypeRef) :
    (t.resolve declared).asWritten = t.asWritten := rfl

theorem Expression.place_bound (k : ClassContext) (inStatic : Bool) (env : Scope)
    (e : Expression) : (e.bound k inStatic env).place = e.place := by
  cases e; rfl

theorem Statement.place_bound (k : ClassContext) (inStatic : Bool) (env : Scope)
    (s : Statement) : (s.bound k inStatic env).place = s.place := by
  cases s; rfl

theorem map_place_boundStatements (k : ClassContext) (inStatic : Bool) (env : Scope)
    (ss : List Statement) :
    (boundStatements k inStatic env ss).map Statement.place = ss.map Statement.place := by
  induction ss generalizing env with
  | nil => rfl
  | cons s ss ih =>
    rw [boundStatements, List.map_cons, List.map_cons, ih, Statement.place_bound]

theorem Statement.layout_bound (k : ClassContext) (inStatic : Bool) (env : Scope)
    (s : Statement) : (s.bound k inStatic env).layout = s.layout := by
  obtain ⟨node, span⟩ := s
  cases node with
  | block statements declared =>
    simp only [Statement.bound, StatementNode.bound, layout, map_place_boundStatements]
  | _ => rfl

theorem Expression.place_infer (e : Expression) : e.infer.place = e.place := by
  cases e; rfl

theorem Statement.place_infer (s : Statement) : s.infer.place = s.place := by
  cases s; rfl

theorem inferStatements_eq_map (ss : List Statement) :
    inferStatements ss = ss.map Statement.infer := by
  induction ss with
  | nil => rfl
  | cons s ss ih => rw [inferStatements, List.map_cons, ih]

theorem Statement.layout_infer (s : Statement) : s.infer.layout = s.layout := by
  obtain ⟨node, span⟩ := s
  cases node with
  | block statements declared =>
    simp only [Statement.infer, StatementNode.infer, layout, inferStatements_eq_map, List.map_map,
      Function.comp_def, place_infer]
  | _ => rfl

theorem map_place_bound (k : ClassContext) (inStatic : Bool) (env : Scope)
    (e : Option Expression) :
    (e.map (·.bound k inStatic env)).map Expression.place = e.map Expression.place := by
  cases e with
  | none => rfl
  | some e => exact congrArg some (e.place_bound k inStatic env)

theorem map_heading_boundParameters (k : ClassContext) (inStatic : Bool) (env : Scope)
    (ps : List Parameter) :
    (boundParameters k inStatic env ps).map Parameter.heading = ps.map Parameter.heading := by
  induction ps generalizing env with
  | nil => rfl
  | cons p ps ih =>
    simp only [boundParameters, List.map_cons, ih, Parameter.heading, map_place_bound,
      TypeRef.asWritten_resolve]

theorem Field.heading_bound (k : ClassContext) (f : Field) : (f.bound k).heading = f.heading := by
  simp only [Field.bound, Field.heading, map_place_bound, TypeRef.asWritten_resolve]

theorem Method.heading_bound (k : ClassContext) (m : Method) :
    (m.bound k).heading = m.heading := by
  have hcode (inStatic : Bool) (env : Scope) :
      (m.code.map (·.bound k inStatic env)).map Statement.layout = m.code.map Statement.layout := by
    cases m.code with
    | none => rfl
    | some s => exact congrArg some (s.layout_bound k inStatic env)
  simp only [Method.bound, Method.heading, hcode, map_heading_boundParameters,
    TypeRef.asWritten_resolve]

theorem Property.heading_resolve (k : ClassContext) (p : Property) :
    (p.resolve k).heading = p.heading := rfl

theorem Property.heading_withAccessors (p : Property) : p.withAccessors.heading = p.heading := rfl

theorem Field.heading_infer (f : Field) :
    ({ f with initial := f.initial.map Expression.infer } : Field).heading = f.heading := by
  cases h : f.initial with
  | none => simp [heading, h]
  | some e => simp [heading, h, e.place_infer]

theorem Method.heading_infer (m : Method) :
    ({ m with code := m.code.map Statement.infer } : Method).heading = m.heading := by
  cases h : m.code with
  | none => simp [heading, h]
  | some s => simp [heading, h, s.layout_infer]

/-- Lists of members with the same headings. -/
theorem map_map_heading {α : Type} {heading change : α → α}
    (h : ∀ x, heading (change x) = heading x) (xs : List α) :
    (xs.map change).map heading = xs.map heading := by
  rw [List.map_map]
  exact List.map_congr_left fun x _ => h x

namespace CompiledClass

theorem keeps_bound (declared : List String) (c : CompiledClass) : c.Keeps (c.bound declared) where
  name := rfl
  isScript := rfl
  span := rfl
  fields := map_map_heading (Field.heading_bound _) _
  properties := map_map_heading (Property.heading_resolve _) _
  methods := ⟨[], (List.append_nil _).trans (map_map_heading (Method.heading_bound _) _).symm⟩
  backed h := h.map rfl rfl rfl (fun _ => rfl) (fun _ => rfl) (fun _ => rfl)
    fun _ _ hb => ⟨hb.name, hb.span, congrArg (TypeRef.resolve _) hb.type, hb.modifiers, hb.owner⟩

theorem keeps_canonical (c : CompiledClass) : c.Keeps c.canonical where
  name := rfl
  isScript := rfl
  span := rfl
  fields := rfl
  properties := map_map_heading Property.heading_withAccessors _
  methods := by
    rw [CompiledClass.canonical, List.map_append]
    exact List.prefix_append _ _
  backed h := h.map rfl (List.map_id _).symm rfl (fun _ => rfl) (fun _ => rfl) (fun _ => rfl)
    fun _ _ hb => ⟨hb.name, hb.span, hb.type, hb.modifiers, hb.owner⟩

theorem keeps_infer (c : CompiledClass) : c.Keeps c.infer where
  name := rfl
  isScript := rfl
  span := rfl
  fields := map_map_heading Field.heading_infer _
  properties := rfl
  methods := ⟨[], (List.append_nil _).trans (map_map_heading Method.heading_infer _).symm⟩
  backed h := h.map rfl rfl (List.map_id _).symm (fun _ => rfl) (fun _ => rfl) (fun _ => rfl)
    fun _ _ hb => ⟨hb.name, hb.span, hb.type, hb.modifiers, hb.owner⟩

theorem keeps_emit (c : CompiledClass) : c.Keeps c.emit := by
  rw [CompiledClass.emit]
  split
  · exact .refl c
  · refine ⟨rfl, rfl, rfl, rfl, rfl, ?_, fun h => ⟨h.fieldNames, h.propertyNames, h.field⟩⟩
    dsimp only
    split
    · exact List.prefix_rfl
    · rw [List.map_append]
      exact List.prefix_append _ _

end CompiledClass

/-! ### Modules -/

/-- The second module is the first one after some phases. -/
def CompiledModule.Keeps (before after : CompiledModule) : Prop :=
  List.Forall₂ CompiledClass.Keeps before.classes after.classes

theorem CompiledModule.Keeps.map {m₀ m : CompiledModule} {change : CompiledClass → CompiledClass}
    (h : m₀.Keeps m) (hchange : ∀ c : CompiledClass, c.Keeps (change c)) {name : String} :
    m₀.Keeps ⟨name, m.classes.map change⟩ :=
  List.forall₂_map_right_iff.mpr (h.imp fun _ c hc => hc.trans (hchange c))

theorem CompiledModule.faults_eq_nil {m : CompiledModule} (h : m.resolve.2 = none) :
    ∀ c ∈ m.classes, c.faults m.classNames = [] := by
  have hfailure : (m.classes.flatMap (CompiledClass.faults m.classNames)).head? = none :=
    (resolveClasses_failure m.classNames m.classes).symm.trans h
  simpa [List.head?_eq_none_iff, List.flatMap_eq_nil_iff] using hfailure

/-- If no class has a fault, all classes are bound. -/
theorem CompiledModule.resolve_eq_map {m : CompiledModule} (h : m.resolve.2 = none) :
    m.resolve.1 = ⟨m.name, m.classes.map (CompiledClass.bound m.classNames)⟩ := by
  have hfaults := faults_eq_nil h
  have hclasses : (resolveClasses m.classNames m.classes).1 =
      m.classes.map (CompiledClass.bound m.classNames) := by
    refine List.ext_getElem? fun i => ?_
    rw [resolveClasses_getElem?, List.getElem?_map]
    congr 1
    funext c
    exact if_pos fun d hd => hfaults d (List.mem_of_mem_take hd)
  exact congrArg (CompiledModule.mk m.name) hclasses

/-! ### Phases -/

namespace Compilation

variable {α : Type} {c c' : Compilation α} {m₀ : CompiledModule}

/-- The compilation has a module that is the given one after some phases. -/
def Holds (m₀ : CompiledModule) (c : Compilation α) : Prop := ∃ m, c.module = some m ∧ m₀.Keeps m

theorem Holds.mapModule (h : c.Holds m₀) {change : CompiledClass → CompiledClass}
    (hchange : ∀ k : CompiledClass, k.Keeps (change k)) :
    (c.mapModule fun m => { m with classes := m.classes.map change }).Holds m₀ := by
  obtain ⟨m, hm, hkeeps⟩ := h
  refine ⟨⟨m.name, m.classes.map change⟩, ?_, hkeeps.map hchange⟩
  rw [Compilation.mapModule, hm]
  rfl

/-- A phase after conversion keeps the module. -/
theorem perform_keeps {p : Phase} (hlater : ¬ p ≤ .conversion) (h : c.Holds m₀)
    (hp : c.perform p = (c', none)) : c'.Holds m₀ := by
  cases p with
  | initialization | parsing | conversion => exact absurd (by decide) hlater
  | semanticAnalysis =>
    obtain ⟨m, hm, hkeeps⟩ := h
    simp only [perform, hm, Prod.mk.injEq] at hp
    obtain ⟨rfl, hnone⟩ := hp
    have hresolve := CompiledModule.resolve_eq_map (Option.map_eq_none_iff.mp hnone)
    exact ⟨_, congrArg some hresolve, hkeeps.map (CompiledClass.keeps_bound _)⟩
  | canonicalization =>
    obtain rfl := (Prod.mk.inj hp).1
    exact h.mapModule CompiledClass.keeps_canonical
  | instructionSelection =>
    obtain rfl := (Prod.mk.inj hp).1
    exact h.mapModule CompiledClass.keeps_infer
  | classGeneration =>
    obtain rfl := (Prod.mk.inj hp).1
    exact h.mapModule CompiledClass.keeps_emit
  | output | finalization =>
    obtain rfl := (Prod.mk.inj hp).1
    exact h

/-- Phases after conversion keep the module. -/
theorem performAll_keeps {phases : List Phase} (hlater : ∀ p ∈ phases, ¬ p ≤ .conversion)
    (h : c.Holds m₀) (hrun : c.performAll phases = (c', none)) : c'.Holds m₀ :=
  performAll_invariant (fun _ _ h => h) (fun p hp _ _ h hperform =>
    perform_keeps (hlater p hp) h hperform) h hrun

end Compilation

end ScriptOutline
