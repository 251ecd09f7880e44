/-
ScriptOutline/Proofs/Offence.lean

Which scripts conversion refuses, and with which failure.  A member of a class is judged by the
members before it (`Member.Offends`): it must not declare a field that one of them declares, as a
field or as a property, and a constructor must be named for the class.  Members that are lawful
together (`Lawful`) are sorted by category (`Members.ofList`), and the first member that offends
is the failure.  This is carried by what one member does to lawful members before it
(`Members.add_ofList`, `Members.add_ofList_error`).

The members of all classes are judged before the names of the classes are compared.  So the
failure of a script is that of the first class with an offending member, and only if there is none
that of the first class whose name has occurred before (`CompiledModule.ofScript_outcome`).
-/
import ScriptOutline.Proofs.Conversion

namespace ScriptOutline

/-! ### Offending members -/

/-- The name of the field that a member declares: a property declares the field of its name. -/
def Member.fieldName? : Member → Option String
  | .field f | .property f => some f.name
  | .constructor .. | .method .. => none

/-- The constructor that a member declares, whatever it is named. -/
def Member.constructor? : Member → Option Constructor
  | .constructor _ c => some c
  | .field .. | .property .. | .method .. => none

/-- The property that a member declares, as it is written. -/
def Member.property? : Member → Option Field
  | .property f => some f
  | .field .. | .constructor .. | .method .. => none

/-- What is wrong with a member of a class that stands behind other members. -/
inductive Member.Offends (className : String) (before : List Member) : Member → Failure → Prop
  | field {f : Field} : f.name ∈ before.filterMap Member.fieldName? →
    Offends className before (.field f) ⟨.duplicateField f.name className, f.span⟩
  | property {f : Field} : f.name ∈ before.filterMap Member.fieldName? →
    Offends className before (.property f) ⟨.duplicateField f.name className, f.span⟩
  | constructor {name : String} {c : Constructor} : name ≠ className →
    Offends className before (.constructor name c) ⟨.misnamedConstructor name className, c.span⟩

/-- No field is declared twice, and all constructors are named for the class. -/
@[mk_iff]
structure Lawful (className : String) (members : List Member) : Prop where
  fieldNames : (members.filterMap Member.fieldName?).Nodup
  constructorNames : ∀ name c, .constructor name c ∈ members → name = className

section

variable {className : String} {before after members : List Member} {member : Member} {f : Failure}

theorem lawful_nil (className : String) : Lawful className [] :=
  ⟨List.nodup_nil, fun _ _ h => absurd h List.not_mem_nil⟩

theorem Lawful.left (h : Lawful className (before ++ after)) : Lawful className before where
  fieldNames := by
    have hnames := h.fieldNames
    rw [List.filterMap_append] at hnames
    exact hnames.of_append_left
  constructorNames name c hc := h.constructorNames name c (List.mem_append_left _ hc)

theorem forall_not_offends_iff :
    (∀ f, ¬ member.Offends className before f) ↔
      (∀ name ∈ member.fieldName?, name ∉ before.filterMap Member.fieldName?) ∧
        ∀ name c, member = .constructor name c → name = className := by
  constructor
  · intro h
    refine ⟨fun name hname hmem => ?_, ?_⟩
    · cases member with
      | field f =>
        obtain rfl := Option.some.inj hname
        exact h _ (.field hmem)
      | property f =>
        obtain rfl := Option.some.inj hname
        exact h _ (.property hmem)
      | constructor | method => cases hname
    · rintro name c rfl
      exact of_not_not fun hne => h _ (.constructor hne)
  · rintro ⟨hfield, hconstructor⟩ f (h | h | h)
    · exact hfield _ rfl h
    · exact hfield _ rfl h
    · exact h (hconstructor _ _ rfl)

/-- One more member keeps members lawful exactly if it does not offend. -/
theorem lawful_concat_iff :
    Lawful className (before ++ [member]) ↔
      Lawful className before ∧ ∀ f, ¬ member.Offends className before f := by
  have hnames : ((before ++ [member]).filterMap Member.fieldName?).Nodup ↔
      (before.filterMap Member.fieldName?).Nodup ∧
        ∀ name ∈ member.fieldName?, name ∉ before.filterMap Member.fieldName? := by
    rw [List.filterMap_append, List.filterMap_cons, List.filterMap_nil]
    cases hname : member.fieldName? with
    | none => simp
    | some name => simp [List.nodup_append, imp_not_comm]
  rw [forall_not_offends_iff]
  constructor
  · rintro h
    obtain ⟨hbefore, hnew⟩ := hnames.mp h.fieldNames
    exact ⟨h.left, hnew, fun name c hc => h.constructorNames name c (by simp [hc])⟩
  · rintro ⟨h, hnew, hconstructor⟩
    refine ⟨hnames.mpr ⟨h.fieldNames, hnew⟩, fun name c hc => ?_⟩
    rcases List.mem_append.mp hc with hc | hc
    · exact h.constructorNames name c hc
    · exact hconstructor name c (List.mem_singleton.mp hc).symm

/-- Behind lawful members, a member that offends is the first one to do so. -/
theorem exists_offends (h : ¬ Lawful className members) :
    ∃ before member after f, members = before ++ member :: after ∧ Lawful className before ∧
      member.Offends className before f := by
  induction members using List.reverseRecOn with
  | nil => exact absurd (lawful_nil className) h
  | append_singleton members member ih =>
    by_cases hmembers : Lawful className members
    · obtain ⟨f, hf⟩ : ∃ f, member.Offends className members f := by
        by_contra hnone
        exact h (lawful_concat_iff.mpr ⟨hmembers, not_exists.mp hnone⟩)
      exact ⟨members, member, [], f, rfl, hmembers, hf⟩
    · obtain ⟨before, x, after, f, rfl, hbefore, hf⟩ := ih hmembers
      exact ⟨before, x, after ++ [member], f, by simp, hbefore, hf⟩

end

/-! ### Sorted members -/

/-- The properties that members declare.  The field of a property stands at its position among all
fields, the first of them at the given one. -/
def propertiesFrom (index : Nat) : List Member → List Property
  | [] => []
  | .field _ :: rest => propertiesFrom (index + 1) rest
  | .property f :: rest => Members.propertyOf f index :: propertiesFrom (index + 1) rest
  | .constructor .. :: rest | .method _ :: rest => propertiesFrom index rest

theorem propertiesFrom_append (index : Nat) (xs ys : List Member) :
    propertiesFrom index (xs ++ ys) = propertiesFrom index xs ++
      propertiesFrom (index + (xs.filterMap Member.fieldName?).length) ys := by
  induction xs generalizing index with
  | nil => rfl
  | cons x xs ih =>
    cases x with
    | field f =>
      simp only [List.cons_append, propertiesFrom, ih, List.filterMap_cons, Member.fieldName?,
        List.length_cons]
      rw [Nat.add_right_comm, Nat.add_assoc]
    | property f =>
      simp only [List.cons_append, propertiesFrom, ih, List.filterMap_cons, Member.fieldName?,
        List.length_cons]
      rw [Nat.add_right_comm, Nat.add_assoc]
    | constructor name c => exact ih index
    | method m => exact ih index

/-- There is a property for each one that is declared, in their order. -/
theorem forall₂_propertiesFrom (index : Nat) (members : List Member) :
    List.Forall₂ (fun f p => p = Members.propertyOf f p.fieldIndex)
      (members.filterMap Member.property?) (propertiesFrom index members) := by
  induction members generalizing index with
  | nil => exact .nil
  | cons member members ih =>
    cases member with
    | field f => exact ih (index + 1)
    | property f => exact .cons rfl (ih (index + 1))
    | constructor name c => exact ih index
    | method m => exact ih index

namespace Members

/-- Members by category.  Each category has those members that belong there, in their order. -/
def ofList (className : String) (members : List Member) : Members where
  constructors := members.filterMap Member.constructor?
  methods := members.filterMap Member.method?
  fields := members.filterMap (Member.stored className)
  properties := propertiesFrom 0 members

/-- Every member goes to one category, and properties have fields besides. -/
theorem length_ofList (className : String) (members : List Member) :
    (ofList className members).constructors.length + (ofList className members).methods.length +
      (ofList className members).fields.length = members.length := by
  induction members with
  | nil => rfl
  | cons member members ih =>
    simp only [ofList] at ih ⊢
    cases member <;> simp only [List.filterMap_cons, Member.constructor?, Member.method?,
      Member.stored, List.length_cons] <;> omega

variable {className : String} {before after members : List Member} {member : Member} {f : Failure}

theorem map_name_stored (className : String) (members : List Member) :
    (members.filterMap (Member.stored className)).map Field.name =
      members.filterMap Member.fieldName? := by
  rw [List.map_filterMap]
  refine List.filterMap_congr fun member _ => ?_
  cases member <;> rfl

theorem length_stored (className : String) (members : List Member) :
    (members.filterMap (Member.stored className)).length =
      (members.filterMap Member.fieldName?).length := by
  rw [← map_name_stored className, List.length_map]

/-- A field is refused if one of the members before declares its name. -/
theorem addField_ofList (className : String) (before : List Member) (f : Field) :
    (ofList className before).addField className f =
      if f.name ∈ before.filterMap Member.fieldName? then
        .error ⟨.duplicateField f.name className, f.span⟩
      else
        .ok { ofList className before with
          fields := (ofList className before).fields ++ [f] } := by
  have hany : (ofList className before).fields.any (·.name == f.name) = true ↔
      f.name ∈ before.filterMap Member.fieldName? := by
    rw [← map_name_stored className, List.any_eq_true, List.mem_map]
    exact exists_congr fun x => and_congr_right' beq_iff_eq
  simp only [addField, hany]

/-- A member that does not offend goes to its category. -/
theorem add_ofList (h : ∀ f, ¬ member.Offends className before f) :
    (ofList className before).add className member =
      .ok (ofList className (before ++ [member])) := by
  cases member with
  | field f =>
    have hnew := mt Member.Offends.field (h _)
    rw [add, addField_ofList, if_neg hnew]
    simp [ofList, propertiesFrom_append, propertiesFrom, Member.constructor?, Member.method?,
      Member.stored]
  | property f =>
    have hnew := mt Member.Offends.property (h _)
    have hname : (backingField className f).name = f.name := rfl
    rw [add, addField_ofList, hname, if_neg hnew]
    simp [ofList, propertiesFrom_append, propertiesFrom, Member.constructor?, Member.method?,
      Member.stored, length_stored, bind, Except.bind]
  | constructor name c =>
    have hname : name = className := of_not_not (mt Member.Offends.constructor (h _))
    rw [add, if_pos hname]
    simp [ofList, propertiesFrom_append, propertiesFrom, Member.constructor?, Member.method?,
      Member.stored]
  | method m =>
    simp [add, ofList, propertiesFrom_append, propertiesFrom, Member.constructor?, Member.method?,
      Member.stored]

/-- A member that offends is refused. -/
theorem add_ofList_error (h : member.Offends className before f) :
    (ofList className before).add className member = .error f := by
  cases h with
  | field h => rw [add, addField_ofList, if_pos h]
  | property h =>
    rename_i f
    have hname : (backingField className f).name = f.name := rfl
    rw [add, addField_ofList, hname, if_pos h]
    rfl
  | constructor h => rw [add, if_neg h]

/-- Lawful members are sorted, whatever comes after them. -/
theorem addAll_ofList_append (h : Lawful className (before ++ members)) :
    (ofList className before).addAll className (members ++ after) =
      (ofList className (before ++ members)).addAll className after := by
  induction members generalizing before with
  | nil => rw [List.append_nil, List.nil_append]
  | cons member members ih =>
    rw [List.append_cons before] at h ⊢
    have hmember := (lawful_concat_iff.mp h.left).2
    rw [← ih h, List.cons_append, addAll, add_ofList hmember]
    rfl

theorem addAll_of_lawful (h : Lawful className members) :
    addAll className {} members = .ok (ofList className members) := by
  have hsorted : (ofList className []).addAll className (members ++ []) =
      (ofList className members).addAll className [] := addAll_ofList_append h
  rwa [List.append_nil] at hsorted

theorem addAll_of_offends (hbefore : Lawful className before)
    (h : member.Offends className before f) :
    addAll className {} (before ++ member :: after) = .error f := by
  have hsorted : (ofList className []).addAll className (before ++ member :: after) =
      (ofList className before).addAll className (member :: after) := addAll_ofList_append hbefore
  refine hsorted.trans ?_
  rw [addAll, add_ofList_error h]
  rfl

end Members

/-! ### Classes -/

/-- A declared class with its members sorted. -/
def ClassDeclaration.sorted (d : ClassDeclaration) : CompiledClass :=
  let members := Members.ofList d.name d.members
  { name := d.name, modifiers := d.modifiers, superClass := d.superClass.getD .dynamic,
    interfaces := d.interfaces, annotations := d.annotations,
    constructors := members.constructors, methods := members.methods, fields := members.fields,
    properties := members.properties, isScript := false, generated := false, span := d.span }

/-- The class has the members of the declaration and no others, by category, those of each category
in the order of declaration. -/
structure CompiledClass.Sorts (c : CompiledClass) (d : ClassDeclaration) : Prop where
  constructors : c.constructors = d.members.filterMap Member.constructor?
  methods : c.methods = d.members.filterMap Member.method?
  fields : c.fields = d.members.filterMap (Member.stored d.name)
  properties : List.Forall₂ (fun f p => p = Members.propertyOf f p.fieldIndex)
    (d.members.filterMap Member.property?) c.properties
  complete : c.constructors.length + c.methods.length + c.fields.length = d.members.length

theorem ClassDeclaration.sorts_sorted (d : ClassDeclaration) : d.sorted.Sorts d where
  constructors := rfl
  methods := rfl
  fields := rfl
  properties := forall₂_propertiesFrom 0 d.members
  complete := Members.length_ofList d.name d.members

/-- The members of the class are lawful. -/
abbrev ClassDeclaration.Lawful (d : ClassDeclaration) : Prop :=
  ScriptOutline.Lawful d.name d.members

/-- The failure is that of the first member of the class that offends. -/
def ClassDeclaration.FailsWith (d : ClassDeclaration) (f : Failure) : Prop :=
  ∃ before member after, d.members = before ++ member :: after ∧
    ScriptOutline.Lawful d.name before ∧ member.Offends d.name before f

section

variable {d : ClassDeclaration} {ds before after : List ClassDeclaration} {f : Failure}

theorem CompiledClass.ofDeclaration_of_lawful (h : d.Lawful) : ofDeclaration d = .ok d.sorted := by
  rw [ofDeclaration, Members.addAll_of_lawful h]
  rfl

theorem CompiledClass.ofDeclaration_of_failsWith (h : d.FailsWith f) :
    ofDeclaration d = .error f := by
  obtain ⟨before, member, after, hmembers, hbefore, hoffends⟩ := h
  rw [ofDeclaration, hmembers, Members.addAll_of_offends hbefore hoffends]
  rfl

theorem ClassDeclaration.exists_failsWith (h : ¬ d.Lawful) : ∃ f, d.FailsWith f := by
  obtain ⟨before, member, after, f, hmembers, hbefore, hoffends⟩ := exists_offends h
  exact ⟨f, before, member, after, hmembers, hbefore, hoffends⟩

/-- Lawful classes are converted, whatever comes after them. -/
theorem convertClasses_append (h : ∀ d ∈ before, d.Lawful) :
    convertClasses (before ++ after) =
      (convertClasses after).map (before.map ClassDeclaration.sorted ++ ·) := by
  induction before with
  | nil => cases hafter : convertClasses after <;> simp [hafter, Except.map]
  | cons d before ih =>
    obtain ⟨hd, hbefore⟩ := List.forall_mem_cons.mp h
    rw [List.cons_append, convertClasses, CompiledClass.ofDeclaration_of_lawful hd, ih hbefore]
    cases convertClasses after <;> rfl

theorem convertClasses_of_lawful (h : ∀ d ∈ ds, d.Lawful) :
    convertClasses ds = .ok (ds.map ClassDeclaration.sorted) := by
  have hall : convertClasses (ds ++ []) =
      .ok (ds.map ClassDeclaration.sorted ++ []) := convertClasses_append h
  rwa [List.append_nil, List.append_nil] at hall

/-- The failure is that of the first class that is not lawful. -/
theorem convertClasses_of_failsWith (hbefore : ∀ d ∈ before, d.Lawful) (h : d.FailsWith f) :
    convertClasses (before ++ d :: after) = .error f := by
  rw [convertClasses_append hbefore, convertClasses, CompiledClass.ofDeclaration_of_failsWith h]
  rfl

theorem forall_lawful_iff :
    (∀ d ∈ ds, d.Lawful) ↔ (∀ d ∈ ds, (d.members.filterMap Member.fieldName?).Nodup) ∧
      ∀ d ∈ ds, ∀ name c, .constructor name c ∈ d.members → name = d.name := by
  simp only [ClassDeclaration.Lawful, lawful_iff, forall_and]

/-- Among classes that are not all lawful there is a first one that is not. -/
theorem exists_not_lawful (h : ¬ ∀ d ∈ ds, d.Lawful) :
    ∃ before d after, ds = before ++ d :: after ∧ (∀ e ∈ before, e.Lawful) ∧ ¬ d.Lawful := by
  induction ds with
  | nil => simp at h
  | cons d ds ih =>
    by_cases hd : d.Lawful
    · have hds : ¬ ∀ e ∈ ds, e.Lawful := fun hds => h (List.forall_mem_cons.mpr ⟨hd, hds⟩)
      obtain ⟨before, e, after, rfl, hbefore, he⟩ := ih hds
      exact ⟨d :: before, e, after, rfl, List.forall_mem_cons.mpr ⟨hd, hbefore⟩, he⟩
    · exact ⟨[], d, ds, rfl, by simp, hd⟩

end

/-! ### Names of classes -/

section

variable {seen : List String} {cs before after : List CompiledClass} {c : CompiledClass}

/-- Classes of new names are passed over. -/
theorem firstDuplicate?_append (h : (seen.reverse ++ before.map CompiledClass.name).Nodup) :
    firstDuplicate? seen (before ++ after) =
      firstDuplicate? ((before.map CompiledClass.name).reverse ++ seen) after := by
  induction before generalizing seen with
  | nil => rfl
  | cons c before ih =>
    rw [List.map_cons, List.append_cons, ← List.reverse_cons] at h
    have hnew : c.name ∉ seen := by
      have hseen := (List.nodup_reverse.mp h.of_append_left)
      exact (List.nodup_cons.mp hseen).1
    rw [List.cons_append, firstDuplicate?, if_neg hnew, ih h]
    simp

theorem firstDuplicate?_of_nodup (h : (cs.map CompiledClass.name).Nodup) :
    firstDuplicate? [] cs = none := by
  have hall : firstDuplicate? [] (cs ++ []) = none := firstDuplicate?_append h
  rwa [List.append_nil] at hall

/-- A class whose name has occurred before is found, if it is the first one. -/
theorem firstDuplicate?_of_mem (hbefore : (before.map CompiledClass.name).Nodup)
    (h : c.name ∈ before.map CompiledClass.name) :
    firstDuplicate? [] (before ++ c :: after) = some c := by
  have hpassed : firstDuplicate? [] (before ++ c :: after) =
      firstDuplicate? ((before.map CompiledClass.name).reverse ++ []) (c :: after) :=
    firstDuplicate?_append hbefore
  rw [hpassed, List.append_nil, firstDuplicate?, if_pos (List.mem_reverse.mpr h)]

/-- Among names that are not all different there is a first one that has occurred before. -/
theorem exists_duplicate (h : ¬ (cs.map CompiledClass.name).Nodup) :
    ∃ before c after, cs = before ++ c :: after ∧ (before.map CompiledClass.name).Nodup ∧
      c.name ∈ before.map CompiledClass.name := by
  induction cs using List.reverseRecOn with
  | nil => exact absurd List.nodup_nil h
  | append_singleton cs c ih =>
    by_cases hcs : (cs.map CompiledClass.name).Nodup
    · refine ⟨cs, c, [], rfl, hcs, of_not_not fun hnew => h ?_⟩
      rw [List.map_append]
      exact hcs.append (List.nodup_singleton _) (by simpa using hnew)
    · obtain ⟨before, x, after, rfl, hbefore, hx⟩ := ih hcs
      exact ⟨before, x, after ++ [c], by simp, hbefore, hx⟩

end

/-! ### Scripts -/

/-- The classes of a script: the script class, unless there are declared classes only, and the
declared ones. -/
def Script.sortedClasses (unitName : String) (s : Script) : List CompiledClass :=
  (if s.statements = [] ∧ s.methods = [] ∧ s.classes ≠ [] then []
    else [scriptClass (scriptClassName unitName) s.statements s.methods]) ++
  s.classes.map ClassDeclaration.sorted

namespace CompiledModule

variable {unitName : String} {s : Script} {f : Failure}

/-- Once all classes are sorted, their names are compared. -/
theorem ofScript_sorted (h : ∀ d ∈ s.classes, d.Lawful) :
    ofScript unitName s =
      match firstDuplicate? [] (s.sortedClasses unitName) with
      | some c => .error ⟨.duplicateClass c.name, c.span⟩
      | none => .ok ⟨unitName, s.sortedClasses unitName⟩ := by
  rw [ofScript, convertClasses_of_lawful h, scriptClasses_eq]
  rfl

theorem ofScript_of_nodup (h : ∀ d ∈ s.classes, d.Lawful)
    (hnames : ((s.sortedClasses unitName).map CompiledClass.name).Nodup) :
    ofScript unitName s = .ok ⟨unitName, s.sortedClasses unitName⟩ := by
  rw [ofScript_sorted h, firstDuplicate?_of_nodup hnames]

theorem ofScript_of_duplicate (h : ∀ d ∈ s.classes, d.Lawful)
    {before after : List CompiledClass} {c : CompiledClass}
    (hclasses : s.sortedClasses unitName = before ++ c :: after)
    (hbefore : (before.map CompiledClass.name).Nodup)
    (hc : c.name ∈ before.map CompiledClass.name) :
    ofScript unitName s = .error ⟨.duplicateClass c.name, c.span⟩ := by
  rw [ofScript_sorted h, hclasses, firstDuplicate?_of_mem hbefore hc]

theorem ofScript_of_failsWith {before after : List ClassDeclaration} {d : ClassDeclaration}
    (hclasses : s.classes = before ++ d :: after) (hbefore : ∀ e ∈ before, e.Lawful)
    (h : d.FailsWith f) : ofScript unitName s = .error f := by
  rw [ofScript, hclasses, convertClasses_of_failsWith hbefore h]
  rfl

/-- A script is refused for a member, or for the name of a class. -/
def Refuses (unitName : String) (s : Script) (f : Failure) : Prop :=
  (∃ before d after, s.classes = before ++ d :: after ∧ (∀ e ∈ before, e.Lawful) ∧
    d.FailsWith f) ∨
  (∀ d ∈ s.classes, d.Lawful) ∧ ∃ before c after,
    s.sortedClasses unitName = before ++ c :: after ∧
      (before.map CompiledClass.name).Nodup ∧ c.name ∈ before.map CompiledClass.name ∧
      f = ⟨.duplicateClass c.name, c.span⟩

theorem ofScript_of_refuses (h : Refuses unitName s f) : ofScript unitName s = .error f := by
  rcases h with ⟨before, d, after, hclasses, hbefore, hd⟩ |
    ⟨hlawful, before, c, after, hclasses, hbefore, hc, rfl⟩
  · exact ofScript_of_failsWith hclasses hbefore hd
  · exact ofScript_of_duplicate hlawful hclasses hbefore hc

/-- A script is converted or refused, and how is known in advance. -/
theorem lawful_or_refuses (unitName : String) (s : Script) :
    ((∀ d ∈ s.classes, d.Lawful) ∧
      ((s.sortedClasses unitName).map CompiledClass.name).Nodup) ∨
    ∃ f, Refuses unitName s f := by
  by_cases hlawful : ∀ d ∈ s.classes, d.Lawful
  · by_cases hnames : ((s.sortedClasses unitName).map CompiledClass.name).Nodup
    · exact .inl ⟨hlawful, hnames⟩
    · obtain ⟨before, c, after, hclasses, hbefore, hc⟩ := exists_duplicate hnames
      exact .inr ⟨_, .inr ⟨hlawful, before, c, after, hclasses, hbefore, hc, rfl⟩⟩
  · obtain ⟨before, d, after, hclasses, hbefore, hd⟩ := exists_not_lawful hlawful
    obtain ⟨f, hf⟩ := d.exists_failsWith hd
    exact .inr ⟨f, .inl ⟨before, d, after, hclasses, hbefore, hf⟩⟩

theorem ofScript_eq_error_iff : ofScript unitName s = .error f ↔ Refuses unitName s f := by
  refine ⟨fun h => ?_, ofScript_of_refuses⟩
  rcases lawful_or_refuses unitName s with ⟨hlawful, hnames⟩ | ⟨f', hf'⟩
  · simp [ofScript_of_nodup hlawful hnames] at h
  · obtain rfl : f' = f := Except.error.inj ((ofScript_of_refuses hf').symm.trans h)
    exact hf'

theorem ofScript_eq_ok_iff {m : CompiledModule} :
    ofScript unitName s = .ok m ↔
      (∀ d ∈ s.classes, d.Lawful) ∧ ((s.sortedClasses unitName).map CompiledClass.name).Nodup ∧
        m = ⟨unitName, s.sortedClasses unitName⟩ := by
  constructor
  · intro h
    rcases lawful_or_refuses unitName s with ⟨hlawful, hnames⟩ | ⟨f, hf⟩
    · exact ⟨hlawful, hnames, Except.ok.inj (h.symm.trans (ofScript_of_nodup hlawful hnames))⟩
    · simp [ofScript_of_refuses hf] at h
  · rintro ⟨hlawful, hnames, rfl⟩
    exact ofScript_of_nodup hlawful hnames

theorem exists_ofScript_error_iff :
    (∃ f, ofScript unitName s = .error f) ↔ ¬ ((∀ d ∈ s.classes, d.Lawful) ∧
      ((s.sortedClasses unitName).map CompiledClass.name).Nodup) := by
  constructor
  · rintro ⟨f, hf⟩ ⟨hlawful, hnames⟩
    simp [ofScript_of_nodup hlawful hnames] at hf
  · intro hnot
    obtain ⟨f, hf⟩ := (lawful_or_refuses unitName s).resolve_left hnot
    exact ⟨f, ofScript_of_refuses hf⟩

/-- A script is refused exactly if a class declares a field twice or has a constructor of another
name, or if two classes have one name.  The failure is that of the first offending member in the
first class with one, and if no member offends that of the first class whose name has occurred
before.  Otherwise every class has all its members, those of each category in their order. -/
theorem ofScript_outcome (unitName : String) (s : Script) :
    ((∃ f, ofScript unitName s = .error f) ↔
      (∃ d ∈ s.classes, ¬ (d.members.filterMap Member.fieldName?).Nodup) ∨
      (∃ d ∈ s.classes, ∃ name c, .constructor name c ∈ d.members ∧ name ≠ d.name) ∨
      ¬ ((s.sortedClasses unitName).map CompiledClass.name).Nodup) ∧
    (∀ f, ofScript unitName s = .error f ↔
      (∃ before d after, s.classes = before ++ d :: after ∧ (∀ e ∈ before, e.Lawful) ∧
        d.FailsWith f) ∨
      (∀ d ∈ s.classes, d.Lawful) ∧ ∃ before c after,
        s.sortedClasses unitName = before ++ c :: after ∧
          (before.map CompiledClass.name).Nodup ∧ c.name ∈ before.map CompiledClass.name ∧
          f = ⟨.duplicateClass c.name, c.span⟩) ∧
    (∀ m, ofScript unitName s = .ok m ↔
      (∀ d ∈ s.classes, d.Lawful) ∧ ((s.sortedClasses unitName).map CompiledClass.name).Nodup ∧
        m = ⟨unitName, s.sortedClasses unitName⟩) ∧
    ∀ d ∈ s.classes, d.sorted.Sorts d := by
  refine ⟨?_, fun f => ofScript_eq_error_iff, fun m => ofScript_eq_ok_iff,
    fun d _ => d.sorts_sorted⟩
  rw [exists_ofScript_error_iff, forall_lawful_iff, and_assoc, not_and_or, not_and_or]
  push Not
  rfl

end CompiledModule

end ScriptOutline
