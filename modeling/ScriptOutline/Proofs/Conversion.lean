/-
ScriptOutline/Proofs/Conversion.lean

What conversion makes of a script.  The members of a declared class are added one by one, and
those added so far say which fields there are: the fields added and those of the properties
added, in one sequence (`Members.Sorted`).  A property is added together with its field, at the
position that the field then gets, and only if the name is new.  So a converted class is backed
(`CompiledClass.ofDeclaration_sorted`).

The module of a script has the script class first, if there is one, and then the declared
classes (`CompiledModule.ofScript_eq_ok`).  The later phases keep all of that, so it holds of
the module of every compilation from conversion on (`Compilation.compile_module`); before
conversion there is no module (`Compilation.compile_no_module`).
-/
import ScriptOutline.Proofs.Conservation

namespace ScriptOutline

/-- A step after another one succeeds if both do. -/
theorem bind_eq_ok {ε α β : Type} {x : Except ε α} {f : α → Except ε β} {b : β} :
    x >>= f = .ok b ↔ ∃ a, x = .ok a ∧ f a = .ok b := by
  cases x with
  | error e => simp [bind, Except.bind]
  | ok a => simp [bind, Except.bind]

/-! ### Members of a class -/

/-- The field that a member declares: itself, or the one that holds the value of a property. -/
def Member.stored (className : String) : Member → Option Field
  | .field f => some { f with owner := className }
  | .property f => some (Members.backingField className f)
  | .constructor .. | .method .. => none

/-- The method that a member declares. -/
def Member.method? : Member → Option Method
  | .method m => some m
  | .field .. | .property .. | .constructor .. => none

namespace Members

/-- What there is when some members have been added. -/
structure Sorted (className : String) (added : List Member) (m : Members) : Prop where
  fields : m.fields = added.filterMap (Member.stored className)
  methods : m.methods = added.filterMap Member.method?
  fieldNames : (m.fields.map Field.name).Nodup
  propertyNames : (m.properties.map Property.name).Sublist (m.fields.map Field.name)
  field : ∀ p ∈ m.properties, ∃ f, m.fields[p.fieldIndex]? = some f ∧ f.Backs p className

variable {className : String} {added : List Member} {member : Member} {m m' : Members}

theorem sorted_nil (className : String) : Sorted className [] {} where
  fields := rfl
  methods := rfl
  fieldNames := List.nodup_nil
  propertyNames := List.Sublist.refl []
  field := by simp

/-- A field is added last, and only if its name is new. -/
theorem addField_eq_ok {f : Field} (h : m.addField className f = .ok m') :
    f.name ∉ m.fields.map Field.name ∧ m' = { m with fields := m.fields ++ [f] } := by
  rw [addField] at h
  split at h
  · simp at h
  · next hnew =>
    refine ⟨fun hmem => hnew ?_, (Except.ok.inj h).symm⟩
    obtain ⟨f', hf', hname⟩ := List.mem_map.mp hmem
    exact List.any_eq_true.mpr ⟨f', hf', beq_iff_eq.mpr hname⟩

/-- The property is backed by the field that is added together with it. -/
theorem backs_backingField (className : String) (f : Field) (i : Nat) :
    (backingField className f).Backs (propertyOf f i) className := ⟨rfl, rfl, rfl, rfl, rfl⟩

namespace Sorted

/-- Fields that are added later do not move the fields behind the properties. -/
theorem addField {f : Field} (h : Sorted className added m)
    (hadd : m.addField className f = .ok m') (hstored : member.stored className = some f)
    (hmethod : member.method? = none) : Sorted className (added ++ [member]) m' := by
  obtain ⟨hnew, rfl⟩ := addField_eq_ok hadd
  refine ⟨?_, ?_, ?_, ?_, fun p hp => ?_⟩
  · rw [List.filterMap_append, h.fields, List.filterMap_cons_some hstored, List.filterMap_nil]
  · rw [List.filterMap_append, h.methods, List.filterMap_cons_none hmethod, List.filterMap_nil,
      List.append_nil]
  · rw [List.map_append]
    exact h.fieldNames.append (List.nodup_singleton _) (by simpa using hnew)
  · rw [List.map_append]
    exact h.propertyNames.trans (List.sublist_append_left _ _)
  · obtain ⟨f', hf', hbacks⟩ := h.field p hp
    have hlt : p.fieldIndex < m.fields.length := (List.getElem?_eq_some_iff.mp hf').1
    exact ⟨f', (List.getElem?_append_left hlt).trans hf', hbacks⟩

/-- A property follows its field. -/
theorem addProperty {f : Field} (h : Sorted className added m)
    (hadd : m.addField className (backingField className f) = .ok m') :
    Sorted className (added ++ [.property f])
      { m' with properties := m.properties ++ [propertyOf f m.fields.length] } := by
  have hfield : Sorted className (added ++ [.property f]) m' := h.addField hadd rfl rfl
  obtain ⟨-, rfl⟩ := addField_eq_ok hadd
  refine ⟨hfield.fields, hfield.methods, hfield.fieldNames, ?_, ?_⟩
  · rw [List.map_append, List.map_append]
    exact h.propertyNames.append (List.Sublist.refl _)
  · refine List.forall_mem_append.mpr ⟨hfield.field, List.forall_mem_singleton.mpr ?_⟩
    exact ⟨_, List.getElem?_concat_length, backs_backingField className f _⟩

/-- A member without a field changes neither fields nor properties. -/
theorem addOther (h : Sorted className added m) (hstored : member.stored className = none)
    (hfields : m'.fields = m.fields) (hproperties : m'.properties = m.properties)
    (hmethods : m'.methods = m.methods ++ member.method?.toList) :
    Sorted className (added ++ [member]) m' where
  fields := by
    rw [hfields, h.fields, List.filterMap_append, List.filterMap_cons_none hstored,
      List.filterMap_nil, List.append_nil]
  methods := by
    rw [hmethods, h.methods, List.filterMap_append]
    cases hmethod : member.method? <;> simp [hmethod]
  fieldNames := by rw [hfields]; exact h.fieldNames
  propertyNames := by rw [hfields, hproperties]; exact h.propertyNames
  field := by rw [hfields, hproperties]; exact h.field

/-- One more member. -/
theorem add (h : Sorted className added m) (hadd : m.add className member = .ok m') :
    Sorted className (added ++ [member]) m' := by
  cases member with
  | field f => exact h.addField hadd rfl rfl
  | property f =>
    obtain ⟨m₁, hfield, hproperty⟩ := bind_eq_ok.mp hadd
    obtain rfl := Except.ok.inj hproperty
    exact h.addProperty hfield
  | constructor name c =>
    rw [Members.add] at hadd
    split at hadd
    · obtain rfl := Except.ok.inj hadd
      exact h.addOther rfl rfl rfl (List.append_nil _).symm
    · simp at hadd
  | method method =>
    obtain rfl := Except.ok.inj hadd
    exact h.addOther rfl rfl rfl rfl

/-- All members of a class. -/
theorem addAll {members : List Member} (h : Sorted className added m)
    (hadd : m.addAll className members = .ok m') :
    Sorted className (added ++ members) m' := by
  induction members generalizing m added with
  | nil =>
    obtain rfl := Except.ok.inj hadd
    rwa [List.append_nil]
  | cons member members ih =>
    obtain ⟨m₁, hmember, hrest⟩ := bind_eq_ok.mp hadd
    have hsorted := ih (h.add hmember) hrest
    rwa [List.append_assoc] at hsorted

end Sorted

end Members

/-! ### Classes -/

/-- What a class is made from. -/
structure ClassPlan where
  name : String
  isScript : Bool
  fields : List Field
  methods : List Method

/-- The plan for a declared class. -/
def ClassDeclaration.plan (d : ClassDeclaration) : ClassPlan where
  name := d.name
  isScript := false
  fields := d.members.filterMap (Member.stored d.name)
  methods := d.members.filterMap Member.method?

/-- The plan for the script class. -/
def Script.classPlan (unitName : String) (s : Script) : ClassPlan where
  name := scriptClassName unitName
  isScript := true
  fields := []
  methods := mainMethod (scriptClassName unitName) :: runMethod s.statements :: s.methods

/-- The plans for the classes of a script: for the script class, if there is top-level code or no
class at all, and for the declared classes in their order. -/
def Script.plans (unitName : String) (s : Script) : List ClassPlan :=
  (if s.statements = [] ∧ s.methods = [] ∧ s.classes ≠ [] then []
    else [s.classPlan unitName]) ++ s.classes.map ClassDeclaration.plan

namespace CompiledClass

/-- The class has been made after the plan, and has been through some phases since. -/
structure Follows (c : CompiledClass) (plan : ClassPlan) : Prop where
  name : c.name = plan.name
  isScript : c.isScript = plan.isScript
  fields : c.fields.map Field.heading = plan.fields.map Field.heading
  methods : plan.methods.map Method.heading <+: c.methods.map Method.heading
  backed : c.Backed

theorem Follows.keeps {plan : ClassPlan} {before after : CompiledClass}
    (h : before.Follows plan) (hkeeps : before.Keeps after) : after.Follows plan where
  name := hkeeps.name.trans h.name
  isScript := hkeeps.isScript.trans h.isScript
  fields := hkeeps.fields.trans h.fields
  methods := h.methods.trans hkeeps.methods
  backed := hkeeps.backed h.backed

theorem ofDeclaration_follows {d : ClassDeclaration} {c : CompiledClass}
    (h : ofDeclaration d = .ok c) : c.Follows d.plan := by
  obtain ⟨m, hm, hc⟩ := bind_eq_ok.mp h
  obtain rfl := Except.ok.inj hc
  have hsorted : Members.Sorted d.name d.members m := (Members.sorted_nil d.name).addAll hm
  refine ⟨rfl, rfl, congrArg _ hsorted.fields, ?_, hsorted.fieldNames, ?_, hsorted.field⟩
  · rw [hsorted.methods]
    exact List.prefix_rfl
  · exact hsorted.propertyNames.nodup hsorted.fieldNames

theorem scriptClass_follows (unitName : String) (s : Script) :
    (scriptClass (scriptClassName unitName) s.statements s.methods).Follows
      (s.classPlan unitName) where
  name := rfl
  isScript := rfl
  fields := rfl
  methods := List.prefix_rfl
  backed := ⟨List.nodup_nil, List.nodup_nil, by simp [scriptClass]⟩

end CompiledClass

theorem convertClasses_eq_ok {ds : List ClassDeclaration} {cs : List CompiledClass}
    (h : convertClasses ds = .ok cs) :
    List.Forall₂ (fun d c => CompiledClass.ofDeclaration d = .ok c) ds cs := by
  induction ds generalizing cs with
  | nil =>
    obtain rfl := Except.ok.inj h
    exact .nil
  | cons d ds ih =>
    obtain ⟨c, hd, h⟩ := bind_eq_ok.mp h
    obtain ⟨rest, hds, h⟩ := bind_eq_ok.mp h
    obtain rfl := Except.ok.inj h
    exact .cons hd (ih hds)

/-! ### Modules -/

/-- There is a script class, unless there are classes only. -/
theorem scriptClasses_eq (unitName : String) (s : Script) :
    scriptClasses unitName s =
      if s.statements = [] ∧ s.methods = [] ∧ s.classes ≠ [] then []
      else [scriptClass (scriptClassName unitName) s.statements s.methods] := by
  have hcondition : (s.statements.isEmpty && s.methods.isEmpty && !s.classes.isEmpty) = true ↔
      s.statements = [] ∧ s.methods = [] ∧ s.classes ≠ [] := by
    simp [and_assoc]
  simp only [scriptClasses, hcondition]

theorem scriptClasses_follow (unitName : String) (s : Script) :
    List.Forall₂ CompiledClass.Follows (scriptClasses unitName s)
      (if s.statements = [] ∧ s.methods = [] ∧ s.classes ≠ [] then []
        else [s.classPlan unitName]) := by
  rw [scriptClasses_eq]
  split
  · exact .nil
  · exact .cons (CompiledClass.scriptClass_follows unitName s) .nil

namespace CompiledModule

/-- The classes of the module have been made after the plans of the script, one for each. -/
def Follows (m : CompiledModule) (unitName : String) (s : Script) : Prop :=
  List.Forall₂ CompiledClass.Follows m.classes (s.plans unitName)

/-- What the script class is, and every class that is made from a declaration, all classes of the
module are. -/
theorem forall_mem_ofScript {P : CompiledClass → Prop} {unitName : String} {s : Script}
    {m : CompiledModule} (h : ofScript unitName s = .ok m)
    (hscript : ∀ c ∈ scriptClasses unitName s, P c)
    (hdeclared : ∀ d ∈ s.classes, ∀ c, CompiledClass.ofDeclaration d = .ok c → P c) :
    ∀ c ∈ m.classes, P c := by
  obtain ⟨declared, hconverted, h⟩ := bind_eq_ok.mp h
  dsimp only at h
  split at h
  · simp at h
  · obtain rfl := Except.ok.inj h
    refine List.forall_mem_append.mpr ⟨hscript, ?_⟩
    have hmade : List.Forall₂ (fun c d => P c ∧ CompiledClass.ofDeclaration d = .ok c)
        declared s.classes :=
      ((List.forall₂_and_left _ _).mpr ⟨hdeclared, convertClasses_eq_ok hconverted⟩).flip.imp
        fun c d hc => ⟨hc.1 c hc.2, hc.2⟩
    exact ((List.forall₂_and_left _ _).mp hmade).1

theorem ofScript_follows {unitName : String} {s : Script} {m : CompiledModule}
    (h : ofScript unitName s = .ok m) : m.Follows unitName s := by
  obtain ⟨declared, hdeclared, h⟩ := bind_eq_ok.mp h
  dsimp only at h
  split at h
  · simp at h
  · obtain rfl := Except.ok.inj h
    refine List.rel_append (scriptClasses_follow unitName s) ?_
    exact List.forall₂_map_right_iff.mpr ((convertClasses_eq_ok hdeclared).flip.imp
      fun _ _ hc => CompiledClass.ofDeclaration_follows hc)

/-- Phases after conversion leave the classes as planned. -/
theorem follows_of_keeps {before after : List CompiledClass} {plans : List ClassPlan}
    (hkeeps : List.Forall₂ CompiledClass.Keeps before after)
    (h : List.Forall₂ CompiledClass.Follows before plans) :
    List.Forall₂ CompiledClass.Follows after plans := by
  induction hkeeps generalizing plans with
  | nil => exact h
  | cons hc _ ih =>
    obtain ⟨plan, plans, hplan, hrest, rfl⟩ := List.forall₂_cons_left_iff.mp h
    exact .cons (hplan.keeps hc) (ih hrest)

end CompiledModule

/-! ### Compilations -/

namespace Compilation

variable {α : Type} {c : Compilation α}

/-- A source that no phase has seen yet, with operations. -/
def ready (name source : String) (operations : List (CompiledModule → CompiledClass → α)) :
    Compilation α :=
  ⟨name, source, none, none, none, operations⟩

variable {name source : String} {operations : List (CompiledModule → CompiledClass → α)}

/-- Parsing reads the script, and there is no module yet. -/
theorem performAll_parsing
    (h : (ready name source operations).performAll (Phase.upTo .parsing) = (c, none)) :
    ∃ script, Script.parse source = .ok script ∧
      c = { ready name source operations with
        script := some script, completed := some .parsing } := by
  change (ready name source operations).performAll [.initialization, .parsing] = _ at h
  have hnot : ¬ Phase.parsing ≤ .initialization := by decide
  cases hscript : Script.parse source with
  | error fault => simp [performAll, hasCompleted, perform, ready, hscript, hnot] at h
  | ok script =>
    refine ⟨script, rfl, ?_⟩
    simpa [performAll, hasCompleted, perform, ready, hscript, hnot, eq_comm] using h

/-- Conversion makes the module of the script. -/
theorem performAll_conversion
    (h : (ready name source operations).performAll (Phase.upTo .conversion) = (c, none)) :
    ∃ script m, Script.parse source = .ok script ∧ CompiledModule.ofScript name script = .ok m ∧
      c.module = some m := by
  have hupTo : Phase.upTo .conversion = Phase.upTo .parsing ++ [.conversion] := rfl
  rw [hupTo, performAll_append] at h
  split at h
  · next c₁ hparsing =>
    obtain ⟨script, hscript, rfl⟩ := performAll_parsing hparsing
    rcases performAll_cons_succeeds h with ⟨hp, -⟩ | ⟨-, c₂, hperform, hrest⟩
    · exact absurd hp (by simp [hasCompleted]; decide)
    · obtain rfl := (Prod.mk.inj hrest).1
      refine ⟨script, ?_⟩
      cases hm : CompiledModule.ofScript name script with
      | error failure => simp [perform, ready, hm] at hperform
      | ok m =>
        obtain rfl : _ = c₂ := by simpa [perform, ready, hm] using hperform
        exact ⟨m, hscript, rfl, rfl⟩
  · simp at h

/-- Before conversion there is no module. -/
theorem compile_early {phase : Phase} {answers : List α} (hphase : ¬ .conversion ≤ phase)
    (h : (new name source : Compilation α).compile phase = (c, .ok answers)) :
    c.module = none := by
  have hrun := (compile_eq_ok h).1
  cases phase with
  | initialization =>
    obtain rfl := (Prod.mk.inj hrun).1
    rfl
  | parsing =>
    obtain ⟨script, -, rfl⟩ := performAll_parsing hrun
    rfl
  | _ => exact absurd (by decide) hphase

/-- From conversion on there is a module, and it follows the script. -/
theorem compile_late {phase : Phase} {answers : List α} (hphase : .conversion ≤ phase)
    (h : (new name source : Compilation α).compile phase = (c, .ok answers)) :
    ∃ script m, Script.parse source = .ok script ∧ c.module = some m ∧ m.Follows name script := by
  have hrun := (compile_eq_ok h).1
  rw [Phase.upTo_split hphase, performAll_append] at hrun
  split at hrun
  · next c₁ hconversion =>
    obtain ⟨script, m₀, hscript, hconverted, hm₀⟩ := performAll_conversion hconversion
    have hholds : c₁.Holds m₀ := ⟨m₀, hm₀, List.forall₂_same.mpr fun k _ => .refl k⟩
    obtain ⟨m, hm, hkeeps⟩ := performAll_keeps (by simp) hholds hrun
    have hfollows : m₀.Follows name script := CompiledModule.ofScript_follows hconverted
    exact ⟨script, m, hscript, hm, CompiledModule.follows_of_keeps hkeeps hfollows⟩
  · simp at hrun

end Compilation

end ScriptOutline
