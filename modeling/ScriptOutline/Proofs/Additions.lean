/-
ScriptOutline/Proofs/Additions.lean

What the phases behind semantic analysis make of a module, and of its outline.  A class gets a
constructor if it has none, then the accessors that its properties lack, behind the methods that
it has, and last the method that answers its meta class (`CompiledClass.completed_eq`).  Everything
else stays, apart from types, names of accessors and the mark that the class is generated.

So the outline of a class at semantic analysis can be had back from the later one: take away the
members that have been added, and reset the rows (`CompiledClass.outline_completed`).  That the
last method is always added rests on names: no method that is read or made before has the name of
it, for that one starts with `$` (`CompiledModule.ofScript_fresh`).
-/
import ScriptOutline.Proofs.Layout
import ScriptOutline.Proofs.Reset

namespace ScriptOutline

/-! ### Names of methods -/

/-- No method of the piece takes the name of the method that answers the meta class. -/
def Piece.Nameable : Piece → Prop
  | .method m => m.name ≠ metaClassAccessor
  | .declaration d => ∀ m ∈ d.members.filterMap Member.method?, m.name ≠ metaClassAccessor
  | _ => True

/-- The name of that method starts with a dollar, and no name that is read does. -/
theorem IsName.ne_metaClassAccessor {name : String} (h : IsName name) :
    name ≠ metaClassAccessor := by
  obtain ⟨x, rfl⟩ := h
  intro h
  have htoList := congrArg String.toList h
  rw [Grammar.Name.text, String.toList_ofList] at htoList
  have hdollar : x.first = '$' := (List.cons.inj htoList).1
  have hstart := x.start
  rw [hdollar] at hstart
  exact absurd hstart (by decide)

theorem Piece.Readable.nameable {p : Piece} (h : p.Readable .code) : p.Nameable := by
  cases p with
  | method m => exact (h.isName nofun m.name (.head _)).ne_metaClassAccessor
  | declaration d =>
    intro m hm
    obtain ⟨member, hmember, hmethod⟩ := List.mem_filterMap.mp hm
    have hpiece : member.piece.Readable .code :=
      h.inner nofun _ (List.mem_append_right _ (List.mem_map_of_mem hmember))
    cases member with
    | method x =>
      obtain rfl := Option.some.inj hmethod
      exact (hpiece.isName nofun x.name (.head _)).ne_metaClassAccessor
    | _ => cases hmethod
  | _ => trivial

/-! ### Classes before the last phases -/

/-- The class has been through no phase that adds members: the mark is not set, no accessor is
known, and the method that answers the meta class is not there. -/
structure CompiledClass.Fresh (c : CompiledClass) : Prop where
  generated : c.generated = false
  property : ∀ p ∈ c.properties, p.getterName = none ∧ p.setterName = none
  method : ∀ m ∈ c.methods, m.name ≠ metaClassAccessor

/-- Properties are made one way only. -/
theorem Members.forall_mem_properties {P : Property → Prop} (hmake : ∀ f i, P (propertyOf f i))
    {className : String} {members : List Member} {m m' : Members} (h : ∀ p ∈ m.properties, P p)
    (hadd : m.addAll className members = .ok m') : ∀ p ∈ m'.properties, P p := by
  induction members generalizing m with
  | nil =>
    obtain rfl := Except.ok.inj hadd
    exact h
  | cons member members ih =>
    obtain ⟨m₁, hfirst, hrest⟩ := bind_eq_ok.mp hadd
    refine ih ?_ hrest
    cases member with
    | field f =>
      obtain ⟨-, rfl⟩ := addField_eq_ok hfirst
      exact h
    | property f =>
      obtain ⟨m₂, -, hproperty⟩ := bind_eq_ok.mp hfirst
      obtain rfl := Except.ok.inj hproperty
      exact List.forall_mem_append.mpr ⟨h, List.forall_mem_singleton.mpr (hmake f _)⟩
    | constructor name c =>
      rw [Members.add] at hfirst
      split at hfirst
      · obtain rfl := Except.ok.inj hfirst
        exact h
      · cases hfirst
    | method x =>
      obtain rfl := Except.ok.inj hfirst
      exact h

namespace CompiledClass

theorem ofDeclaration_fresh {d : ClassDeclaration} {c : CompiledClass}
    (hd : (Piece.declaration d).Nameable) (h : ofDeclaration d = .ok c) : c.Fresh := by
  obtain ⟨m, hm, hc⟩ := bind_eq_ok.mp h
  obtain rfl := Except.ok.inj hc
  have hsorted : Members.Sorted d.name d.members m := (Members.sorted_nil d.name).addAll hm
  refine ⟨rfl, ?_, ?_⟩
  · exact Members.forall_mem_properties (fun _ _ => ⟨rfl, rfl⟩) (List.forall_mem_nil _) hm
  · rw [hsorted.methods]
    exact hd

theorem scriptClass_fresh {name : String} {statements : List Statement} {methods : List Method}
    (hmethods : ∀ m ∈ methods, m.name ≠ metaClassAccessor) :
    (scriptClass name statements methods).Fresh where
  generated := rfl
  property := List.forall_mem_nil _
  method := List.forall_mem_cons.mpr ⟨show "main" ≠ metaClassAccessor by decide,
    List.forall_mem_cons.mpr ⟨show "run" ≠ metaClassAccessor by decide, hmethods⟩⟩

/-- The resolution of names leaves the class as fresh as it was. -/
theorem Fresh.bound {c : CompiledClass} (h : c.Fresh) (declared : List String) :
    (c.bound declared).Fresh := by
  rw [bound_eq]
  exact ⟨h.generated, List.forall_mem_map.mpr h.property, List.forall_mem_map.mpr h.method⟩

end CompiledClass

/-- The classes of a module that has just been made are fresh. -/
theorem CompiledModule.ofScript_fresh {unitName : String} {s : Script} {m : CompiledModule}
    (hs : ∀ root ∈ s.roots, root.Nameable) (h : ofScript unitName s = .ok m) :
    ∀ c ∈ m.classes, c.Fresh := by
  refine forall_mem_ofScript h (fun c hc => ?_) fun d hd c hc => ?_
  · rw [scriptClasses] at hc
    split at hc
    · cases hc
    · obtain rfl := List.mem_singleton.mp hc
      exact CompiledClass.scriptClass_fresh fun x hx => hs (.method x)
        (List.mem_append_left _ (List.mem_append_right _ (List.mem_map_of_mem hx)))
  · exact CompiledClass.ofDeclaration_fresh
      (hs _ (List.mem_append_right _ (List.mem_map_of_mem hd))) hc

/-! ### Members that are added -/

/-- The member with types in its code. -/
def Field.infer (f : Field) : Field := { f with initial := f.initial.map Expression.infer }

def Constructor.infer (c : Constructor) : Constructor :=
  { c with code := c.code.map Statement.infer }

def Method.infer (m : Method) : Method := { m with code := m.code.map Statement.infer }

namespace CompiledClass

variable {c : CompiledClass}

/-- All accessors of the properties of a class, in the order of the properties: a getter, and a
setter unless the property is final. -/
def accessors (c : CompiledClass) : List Method :=
  c.properties.flatMap fun p =>
    p.getterMethod c.name :: if p.modifiers.isFinal then [] else [p.setterMethod c.name]

/-- The accessors that are not written: no method has that name and as many parameters. -/
def missingAccessors (c : CompiledClass) : List Method :=
  c.accessors.filter fun a => !c.hasMethod a.name a.parameters.length

/-- The constructor that a class without constructors gets. -/
def defaultConstructors (c : CompiledClass) : List Constructor :=
  if c.constructors = [] then [.generated [] []] else []

/-- The class after the last phases. -/
def completed (c : CompiledClass) : CompiledClass := c.canonical.infer.emit

theorem flatMap_missingAccessors (c : CompiledClass) :
    c.properties.flatMap (·.missingAccessors c.name c.methods) = c.missingAccessors := by
  rw [missingAccessors, accessors, List.filter_flatMap]
  refine List.flatMap_congr fun p _ => ?_
  have hgetter :
      c.hasMethod (p.getterMethod c.name).name (p.getterMethod c.name).parameters.length =
        c.methods.any (·.hasSignature p.getter 0) := rfl
  have hsetter :
      c.hasMethod (p.setterMethod c.name).name (p.setterMethod c.name).parameters.length =
        c.methods.any (·.hasSignature p.setter 1) := rfl
  rw [Property.missingAccessors, List.filter_cons, hgetter, apply_ite (List.filter _),
    List.filter_cons, hsetter]
  generalize c.methods.any (·.hasSignature p.getter 0) = written
  generalize c.methods.any (·.hasSignature p.setter 1) = written'
  cases written <;> cases written' <;> cases p.modifiers.isFinal <;> rfl

/-- No types can be told in accessors. -/
theorem infer_of_mem_accessors (c : CompiledClass) : ∀ a ∈ c.accessors, a.infer = a := by
  refine List.forall_mem_flatMap.mpr fun p _ => List.forall_mem_cons.mpr ⟨rfl, ?_⟩
  split
  · exact List.forall_mem_nil _
  · exact List.forall_mem_singleton.mpr rfl

/-- The name of an accessor starts with `get` or `set`. -/
theorem name_ne_of_mem_accessors (c : CompiledClass) :
    ∀ a ∈ c.accessors, a.name ≠ metaClassAccessor := by
  have hne (word suffix : String) (h : word.toList.head? ∉ [none, some '$']) :
      word ++ suffix ≠ metaClassAccessor := by
    intro heq
    have htoList := congrArg String.toList heq
    rw [String.toList_append] at htoList
    cases hword : word.toList with
    | nil => simp [hword] at h
    | cons first rest =>
      rw [hword] at htoList h
      obtain rfl : first = '$' := (List.cons.inj htoList).1
      simp at h
  refine List.forall_mem_flatMap.mpr fun p _ => List.forall_mem_cons.mpr ⟨?_, ?_⟩
  · exact hne "get" p.accessorSuffix (by decide)
  · split
    · exact List.forall_mem_nil _
    · exact List.forall_mem_singleton.mpr (hne "set" p.accessorSuffix (by decide))

theorem Fresh.name_ne (h : c.Fresh) :
    ∀ m ∈ c.methods.map Method.infer ++ c.missingAccessors, m.name ≠ metaClassAccessor :=
  List.forall_mem_append.mpr ⟨List.forall_mem_map.mpr h.method, fun a ha =>
    c.name_ne_of_mem_accessors a (List.mem_of_mem_filter ha)⟩

/-- A fresh class after the last phases. -/
theorem Fresh.completed_eq (h : c.Fresh) :
    c.completed = { c with
      constructors := c.constructors.map Constructor.infer ++ c.defaultConstructors
      methods := c.methods.map Method.infer ++ c.missingAccessors ++ [metaClassMethod c.name]
      fields := c.fields.map Field.infer
      properties := c.properties.map Property.withAccessors
      generated := true } := by
  have hconstructors : c.canonical.infer.constructors =
      c.constructors.map Constructor.infer ++ c.defaultConstructors := by
    show (if c.constructors.isEmpty then [.generated [] []] else c.constructors).map
      Constructor.infer = _
    rw [defaultConstructors]
    cases c.constructors
    · rfl
    · exact (List.append_nil _).symm
  have hmethods : c.canonical.infer.methods =
      c.methods.map Method.infer ++ c.missingAccessors := by
    have haccessors : c.missingAccessors.map Method.infer = c.missingAccessors :=
      (List.map_congr_left fun a ha => c.infer_of_mem_accessors a (List.mem_of_mem_filter ha)).trans
        (List.map_id _)
    show (c.methods ++ c.properties.flatMap _).map Method.infer = _
    rw [c.flatMap_missingAccessors, List.map_append, haccessors]
  -- the class has not been generated and has no such method yet, so it gets one
  have hgenerated : c.canonical.infer.generated = false := h.generated
  have hnot : c.canonical.infer.hasMethod metaClassAccessor 0 = false := by
    rw [hasMethod, hmethods, List.any_eq_false]
    intro m hm
    simp [Method.hasSignature, h.name_ne m hm]
  rw [completed, emit, hgenerated, hnot, hmethods, hconstructors]
  rfl

end CompiledClass

/-! ### Outlines of members -/

/-- No type has been told in the code of the members. -/
def CompiledClass.Uninferred (c : CompiledClass) : Prop :=
  ∀ p ∈ c.pieces, p.Everywhere Part.Uninferred

theorem map_reset_codeOutline {code : Option Statement}
    (h : ∀ q ∈ code.toList.map Piece.ofStatement, q.Everywhere Part.Uninferred) :
    (codeOutline .empty (code.map Statement.infer)).map Outline.reset =
      codeOutline .empty code := by
  cases code with
  | none => rfl
  | some s => exact Statement.outline_infer (h _ (.head _))

theorem map_reset_initialOutline {initial : Option Expression}
    (h : ∀ q ∈ initial.toList.map Piece.ofExpression, q.Everywhere Part.Uninferred) :
    (initialOutline .empty (initial.map Expression.infer)).map Outline.reset =
      initialOutline .empty initial := by
  cases initial with
  | none => rfl
  | some e => exact Expression.outline_infer (h _ (.head _))

theorem Constructor.outline_infer {x : Constructor}
    (h : (Piece.constructor x).Everywhere Part.Uninferred) :
    (x.infer.outline .empty).reset = x.outline .empty := by
  have hrows : x.infer.rows.map Row.reset = x.rows := by
    obtain ⟨_, _, _, _ | code, _, _⟩ := x <;> rfl
  have hcode := map_reset_codeOutline fun q hq => h.inner (List.mem_append_right _ hq)
  rw [outline, outline, Outline.reset_ofNode, hrows, infer, hcode]

theorem Method.outline_infer {m : Method} (h : (Piece.method m).Everywhere Part.Uninferred) :
    (m.infer.outline .empty).reset = m.outline .empty := by
  have hrows : m.infer.rows.map Row.reset = m.rows := by
    obtain ⟨_, _, _, _, _, _ | code, _, _, _⟩ := m <;> rfl
  have hcode := map_reset_codeOutline fun q hq => h.inner (List.mem_append_right _ hq)
  rw [outline, outline, Outline.reset_ofNode, hrows, infer, hcode]

theorem Field.outline_infer {f : Field} (h : (Piece.field f).Everywhere Part.Uninferred) :
    (f.infer.outline .empty).reset = f.outline .empty := by
  have hrows : f.infer.rows.map Row.reset = f.rows := by
    simp [infer, rows, Row.reset, Row.ofString, Row.ofType, Row.ofSpan, Function.comp_def,
      Expression.text_infer]
  have hinitial := map_reset_initialOutline fun q hq => h.inner (List.mem_append_right _ hq)
  rw [outline, outline, Outline.reset_ofNode, hrows, infer, hinitial]

theorem Property.outline_withAccessors {c c' : CompiledClass} {p : Property}
    (hp : p.getterName = none ∧ p.setterName = none) (hc : c.Uninferred)
    (hfields : c'.fields = c.fields.map Field.infer) :
    (p.withAccessors.outline .empty c').reset = p.outline .empty c := by
  have hrows : p.withAccessors.rows.map Row.reset = p.rows := by
    simp [withAccessors, rows, hp, Row.reset, Row.ofString, Row.ofType, Row.ofSpan]
  have hinitial : (c'.propertyField p.withAccessors).bind Field.initial =
      ((c.propertyField p).bind Field.initial).map Expression.infer := by
    show (c'.fields[p.fieldIndex]?).bind Field.initial = _
    rw [hfields, List.getElem?_map, CompiledClass.propertyField]
    cases c.fields[p.fieldIndex]? <;> rfl
  rw [outline, outline, Outline.reset_ofNode, hrows, hinitial,
    map_reset_initialOutline fun q hq => ?_]
  cases hf : c.propertyField p with
  | none => simp [hf] at hq
  | some f =>
    rw [hf] at hq
    have hmem : f ∈ c.fields := List.mem_of_getElem? hf
    exact ((CompiledClass.forall_mem_pieces.mp hc).1 f hmem).inner (List.mem_append_right _ hq)

theorem Annotation.reset_outline (a : Annotation) :
    (a.outline .empty).reset = a.outline .empty := by
  have hrows : a.rows.map Row.reset = a.rows := by
    simp [rows, Row.reset, Row.ofType, Row.ofSpan]
  rw [outline, Outline.reset_ofNode, hrows]
  rfl

/-! ### Taking members away -/

namespace Outline

/-- A category with the first of its members only, if it holds constructors or methods.  One of
which nothing is left is left out. -/
def keepFirst (constructors methods : Nat) (category : Outline) : List Outline :=
  if category.label = "Constructors" then
    categoryOutline "Constructors" (category.children.take constructors)
  else if category.label = "Methods" then
    categoryOutline "Methods" (category.children.take methods)
  else [category]

/-- The outline of a class with the first of its constructors and methods only. -/
def withFirst (constructors methods : Nat) (t : Outline) : Outline :=
  { t with children := t.children.flatMap (keepFirst constructors methods) }

/-- The outlines of a module, with the first of the constructors and methods of each class only,
as many as the list says for the class. -/
def withFirstMembers : List (Nat × Nat) → List Outline → List Outline
  | [], ts => ts
  | _, [] => []
  | (constructors, methods) :: counts, t :: rest =>
    if t.label = Kind.classNode.simpleName then
      t.withFirst constructors methods :: withFirstMembers counts rest
    else t :: withFirstMembers ((constructors, methods) :: counts) rest

variable {constructors methods : Nat}

theorem keepFirst_constructors (members : List Outline) :
    (categoryOutline "Constructors" members).flatMap (keepFirst constructors methods) =
      categoryOutline "Constructors" (members.take constructors) := by
  cases members with
  | nil => rw [List.take_nil]; rfl
  | cons t ts => exact List.append_nil _

theorem keepFirst_methods (members : List Outline) :
    (categoryOutline "Methods" members).flatMap (keepFirst constructors methods) =
      categoryOutline "Methods" (members.take methods) := by
  cases members with
  | nil => rw [List.take_nil]; rfl
  | cons t ts => exact List.append_nil _

theorem keepFirst_other {name : String} (h : name ∉ ["Constructors", "Methods"])
    (members : List Outline) :
    (categoryOutline name members).flatMap (keepFirst constructors methods) =
      categoryOutline name members := by
  simp only [List.mem_cons, List.not_mem_nil, or_false, not_or] at h
  cases members with
  | nil => rfl
  | cons t ts =>
    show keepFirst constructors methods (.ofLabel name (t :: ts)) ++ [] = _
    rw [List.append_nil]
    exact (if_neg h.1).trans (if_neg h.2)

end Outline

theorem map_reset_categoryOutline (name : String) (members : List Outline) :
    (categoryOutline name members).map Outline.reset =
      categoryOutline name (members.map Outline.reset) := by
  cases members with
  | nil => rfl
  | cons t ts => exact congrArg ([·]) (Outline.reset_ofLabel name (t :: ts))

/-! ### Outlines of classes -/

namespace CompiledClass

variable {c : CompiledClass}

/-- Outlines of members with types, and behind them those of members that have been added. -/
theorem map_reset_take {α : Type} {infer : α → α} {outline : α → Outline} {xs : List α}
    (added : List α) (h : ∀ x ∈ xs, (outline (infer x)).reset = outline x) :
    (((xs.map infer ++ added).map outline).take xs.length).map Outline.reset = xs.map outline := by
  rw [List.map_append, List.take_left' (by simp), List.map_map, List.map_map]
  exact List.map_congr_left h

/-- The outline of a class before the last phases, got back from the one behind them. -/
theorem outline_completed (hfresh : c.Fresh) (h : c.Uninferred) :
    ((c.completed.outline .empty).withFirst c.constructors.length c.methods.length).reset =
      c.outline .empty := by
  obtain ⟨hfields, hconstructors, hmethods⟩ := forall_mem_pieces.mp h
  have hrows : c.completed.rows.map Row.reset = c.rows := by
    rw [hfresh.completed_eq, rows, rows, hfresh.generated]
    rfl
  have hcategories : ((c.completed.outline .empty).withFirst c.constructors.length
      c.methods.length).children.map Outline.reset = (c.outline .empty).children := by
    -- what has been added comes last among the constructors and methods, and is not taken
    have hconstructors := map_reset_take c.defaultConstructors fun x hx =>
      Constructor.outline_infer (hconstructors x hx)
    have hmethods := map_reset_take (c.missingAccessors ++ [metaClassMethod c.name]) fun m hm =>
      Method.outline_infer (hmethods m hm)
    have hfields : (c.completed.fields.map (·.outline .empty)).map Outline.reset =
        c.fields.map (·.outline .empty) := by
      rw [hfresh.completed_eq, List.map_map, List.map_map]
      exact List.map_congr_left fun f hf => Field.outline_infer (hfields f hf)
    have hproperties : (c.completed.properties.map (·.outline .empty c.completed)).map
        Outline.reset = c.properties.map (·.outline .empty c) := by
      rw [hfresh.completed_eq, List.map_map, List.map_map]
      exact List.map_congr_left fun p hp =>
        Property.outline_withAccessors (hfresh.property p hp) h rfl
    have hannotations : (c.completed.annotations.map (·.outline .empty)).map Outline.reset =
        c.annotations.map (·.outline .empty) := by
      rw [hfresh.completed_eq, List.map_map]
      exact List.map_congr_left fun a _ => a.reset_outline
    rw [Outline.withFirst, outline, outline, Outline.ofNode, Outline.ofNode]
    simp only [List.flatMap_append, List.map_append]
    rw [Outline.keepFirst_constructors, Outline.keepFirst_methods,
      Outline.keepFirst_other (show "Fields" ∉ _ by decide),
      Outline.keepFirst_other (show "Properties" ∉ _ by decide),
      Outline.keepFirst_other (show "Annotations" ∉ _ by decide)]
    simp only [map_reset_categoryOutline, hfields, hproperties, hannotations]
    rw [hfresh.completed_eq]
    simp only [List.append_assoc, hconstructors, hmethods]
  show Outline.reset (.ofNode .empty .classNode c.completed.rows _) = _
  rw [Outline.reset_ofNode, hrows]
  exact congrArg _ hcategories

end CompiledClass

/-! ### Modules -/

namespace CompiledModule

variable {m : CompiledModule} {unitName : String} {s : Script}

/-- The module after the last phases. -/
def completed (m : CompiledModule) : CompiledModule :=
  { m with classes := m.classes.map CompiledClass.completed }

theorem emit_infer_canonical (m : CompiledModule) : m.canonical.infer.emit = m.completed := by
  simp [canonical, infer, emit, completed, CompiledClass.completed, Function.comp_def]

theorem scriptClass_completed (m : CompiledModule) :
    m.completed.scriptClass = m.scriptClass.map CompiledClass.completed := by
  have hmark : CompiledClass.isScript ∘ CompiledClass.completed = CompiledClass.isScript := by
    funext c
    rw [Function.comp_apply, CompiledClass.completed, CompiledClass.emit]
    split <;> rfl
  rw [scriptClass, completed, List.find?_map, hmark, scriptClass]

/-- The statements are found where they were, with types in them. -/
theorem Follows.statementBlock_completed (h : m.Follows unitName s)
    (hfresh : ∀ c ∈ m.classes, c.Fresh) :
    m.completed.statementBlock = m.statementBlock.map Statement.infer := by
  rw [statementBlock, scriptClass_completed, statementBlock]
  rcases h.scriptClass with ⟨-, hnone⟩ | ⟨c, hfirst, hc, hfollows⟩
  · rw [hnone]
    rfl
  · obtain ⟨run, -, -, hfind⟩ := hfollows.run
    have hfresh := hfresh c (List.mem_of_getElem? hfirst)
    have hrun : c.completed.methods.find? (·.hasSignature "run" 0) = some run.infer := by
      have hinfer : (c.methods.map Method.infer).find? (·.hasSignature "run" 0) =
          some run.infer := by
        rw [List.find?_map]
        exact congrArg (Option.map Method.infer) hfind
      rw [hfresh.completed_eq, List.append_assoc, List.find?_append, hinfer]
      rfl
    simp only [hc, Option.map_some, Option.bind_eq_bind, Option.bind_some, hfind, hrun]
    rfl

/-- The block of the top-level statements, with its types taken back. -/
theorem Follows.map_reset_topLevelOutline (h : m.Follows unitName s)
    (hfresh : ∀ c ∈ m.classes, c.Fresh) (huninferred : ∀ c ∈ m.classes, c.Uninferred) :
    (m.completed.topLevelOutline .empty).map Outline.reset = m.topLevelOutline .empty := by
  rw [CompiledModule.topLevelOutline, CompiledModule.topLevelOutline,
    h.statementBlock_completed hfresh]
  cases hblock : m.statementBlock with
  | none => rfl
  | some block =>
    have hcode : (Piece.ofStatement block).Everywhere Part.Uninferred := by
      obtain ⟨c, hc, hmethods⟩ := Option.bind_eq_some_iff.mp hblock
      obtain ⟨run, hrun, hcode⟩ := Option.bind_eq_some_iff.mp hmethods
      have hmethod := (CompiledClass.forall_mem_pieces.mp
        (huninferred c (List.mem_of_find?_eq_some hc))).2.2 run (List.mem_of_find?_eq_some hrun)
      exact hmethod.inner
        (List.mem_append_right _ (List.mem_map_of_mem (Option.mem_toList.mpr hcode)))
    obtain ⟨node, span⟩ := block
    cases node with
    | block statements declared =>
      cases statements with
      | nil => rfl
      | cons first rest => exact Statement.outline_infer hcode
    | _ => rfl

/-- The block is not taken for a class. -/
theorem label_topLevelOutline (m : CompiledModule) :
    ∀ t ∈ m.topLevelOutline .empty, t.label ≠ Kind.classNode.simpleName := by
  rw [topLevelOutline]
  split
  · rw [Statement.outline_eq, Part.forest_eq]
    exact List.forall_mem_singleton.mpr (show Kind.blockStatement.simpleName ≠ _ by decide)
  · exact List.forall_mem_nil _

end CompiledModule

namespace Outline

/-- What is no class is kept. -/
theorem withFirstMembers_append (counts : List (Nat × Nat)) {ts : List Outline}
    (h : ∀ t ∈ ts, t.label ≠ Kind.classNode.simpleName) (us : List Outline) :
    withFirstMembers counts (ts ++ us) = ts ++ withFirstMembers counts us := by
  cases counts with
  | nil => rw [withFirstMembers, withFirstMembers]
  | cons count counts =>
    induction ts with
    | nil => rfl
    | cons t ts ih =>
      obtain ⟨ht, hts⟩ := List.forall_mem_cons.mp h
      rw [List.cons_append, withFirstMembers, if_neg ht, ih hts, List.cons_append]

/-- The counts go with the classes. -/
theorem withFirstMembers_map {α : Type} {count : α → Nat × Nat} {outline : α → Outline}
    (h : ∀ x, (outline x).label = Kind.classNode.simpleName) (xs : List α) :
    withFirstMembers (xs.map count) (xs.map outline) =
      xs.map fun x => (outline x).withFirst (count x).1 (count x).2 := by
  induction xs with
  | nil => rfl
  | cons x xs ih => rw [List.map_cons, List.map_cons, withFirstMembers, if_pos (h x), ih]; rfl

end Outline

/-- How many constructors and methods each class of the module has. -/
def CompiledModule.memberCounts (m : CompiledModule) : List (Nat × Nat) :=
  m.classes.map fun c => (c.constructors.length, c.methods.length)

/-- The outlines of a module before the last phases, got back from those behind them. -/
theorem CompiledModule.Follows.outlines_completed {m : CompiledModule} {unitName : String}
    {s : Script} (h : m.Follows unitName s) (hfresh : ∀ c ∈ m.classes, c.Fresh)
    (huninferred : ∀ c ∈ m.classes, c.Uninferred) :
    (Outline.withFirstMembers m.memberCounts (m.completed.outlines .empty)).map Outline.reset =
      m.outlines .empty := by
  rw [outlines, outlines, Outline.withFirstMembers_append _ m.completed.label_topLevelOutline,
    List.map_append, h.map_reset_topLevelOutline hfresh huninferred, completed, List.map_map,
    memberCounts, Outline.withFirstMembers_map (fun _ => rfl), List.map_map]
  refine congrArg _ (List.map_congr_left fun c hc => ?_)
  exact CompiledClass.outline_completed (hfresh c hc) (huninferred c hc)

/-! ### Compilations -/

/-- What the phases behind semantic analysis make of the module that there is then. -/
theorem Compilation.compile_classGeneration {α : Type} {name source : String} {c' : Compilation α}
    {answers : List α}
    (h : (new name source : Compilation α).compile .classGeneration = (c', .ok answers)) :
    ∃ c m script, (new name source : Compilation α).compile .semanticAnalysis = (c, .ok c.visits) ∧
      c.module = some m ∧ c'.module = some m.completed ∧ m.Follows name script ∧
      ∀ k ∈ m.classes, k.Fresh ∧ k.Uninferred := by
  have hrun := (compile_eq_ok h).1
  obtain ⟨c, hanalysed⟩ := performAll_before hrun (show Phase.semanticAnalysis ≤ _ by decide)
  have hcompile :
      (new name source : Compilation α).compile .semanticAnalysis = (c, .ok c.visits) := by
    rw [compile, ← Phase.upTo, hanalysed]
  obtain ⟨script, m₀, hscript, hm₀, hfailure, rfl⟩ := performAll_semanticAnalysis hanalysed
  obtain ⟨_, m, -, hm, hfollows⟩ := compile_late (by decide) hcompile
  obtain rfl : m₀.resolve.1 = m := Option.some.inj hm
  refine ⟨_, _, _, hcompile, rfl, ?_, hfollows, ?_⟩
  · -- the run goes on where the shorter one has ended
    have hupTo : Phase.upTo .classGeneration = Phase.upTo .semanticAnalysis ++
        [.canonicalization, .instructionSelection, .classGeneration] := by decide
    have hlast : c'.module = some m₀.resolve.1.canonical.infer.emit := by
      rw [hupTo, performAll_append, hanalysed] at hrun
      obtain rfl := (Prod.mk.inj hrun).1
      rfl
    rw [hlast, CompiledModule.emit_infer_canonical]
  · rw [CompiledModule.resolve_eq_map hfailure]
    refine List.forall_mem_map.mpr fun k hk => ⟨?_, ?_⟩
    · have hfresh := CompiledModule.ofScript_fresh
        (fun root hroot => (Script.parse_readable hscript root hroot).nameable) hm₀
      exact (hfresh k hk).bound m₀.classNames
    · have htidy := CompiledModule.ofScript_tidy (Script.parse_tidy hscript) hm₀
      exact CompiledClass.everywhere_bound (fun _ => Part.Regular.uninferred)
        Part.uninferred_bound (fun k target h _ => Part.uninferred_boundDeclared k target h)
        m₀.classNames (htidy k hk)

/-! ### Sessions -/

/-- The later class has the members of the earlier one, with types in their code, and behind them
those that are added: a constructor if there was none, then the accessors that were missing, in the
order of the properties, and last the method that answers the meta class, the only one of its
name. -/
structure CompiledClass.Additions (c c' : CompiledClass) : Prop where
  constructors : c'.constructors = c.constructors.map Constructor.infer ++ c.defaultConstructors
  methods : c'.methods =
    c.methods.map Method.infer ++ c.missingAccessors ++ [metaClassMethod c.name]
  metaClass : (c'.methods.filter fun m => m.name = metaClassAccessor) = [metaClassMethod c.name]

theorem CompiledClass.Fresh.additions {c : CompiledClass} (h : c.Fresh) :
    c.Additions c.completed := by
  have hmethods : c.completed.methods =
      c.methods.map Method.infer ++ c.missingAccessors ++ [metaClassMethod c.name] := by
    rw [h.completed_eq]
  refine ⟨by rw [h.completed_eq], hmethods, ?_⟩
  have hothers : ((c.methods.map Method.infer ++ c.missingAccessors).filter fun m =>
      m.name = metaClassAccessor) = [] := by
    refine List.filter_eq_nil_iff.mpr fun m hm => ?_
    simpa using h.name_ne m hm
  rw [hmethods, List.filter_append, hothers, List.nil_append]
  rfl

/-- The outline with those constructors and methods of each class only that the module has
already. -/
def Outline.withoutAdded (m : CompiledModule) (t : Outline) : Outline :=
  { t with children := withFirstMembers m.memberCounts t.children }

theorem Session.compile_ok {s : Session} {source : String} {phase : Phase} {root : Outline}
    (h : (s.compile source phase).2 = .ok root) :
    ∃ c answers,
      (Compilation.new (unitName (s.count + 1)) source : Compilation Unit).compile phase =
        (c, .ok answers) ∧
      root = .ofLabel (unitName (s.count + 1)) (c.outlines s.labels) := by
  rw [compile_answer (α := Unit)] at h
  rcases hcompile : (Compilation.new (unitName (s.count + 1)) source : Compilation Unit).compile
    phase with ⟨c, error | answers⟩
  · rw [hcompile] at h
    cases h
  · rw [hcompile] at h
    exact ⟨c, answers, rfl, (Except.ok.inj h).symm⟩

/-- A session without templates, whatever it has been asked before, and a source that it compiles
to class generation.  It also compiles the source to semantic analysis, and the outline that it
answers then is the one of class generation without the members that have been added since, with
the rows for types, for names of accessors and for the mark of generated classes reset.  What has
been added is told class by class. -/
theorem Session.compile_additions (s : Session) (hlabels : s.labels = .empty) (source : String)
    (after : Outline) (h : (s.compile source .classGeneration).2 = .ok after) :
    ∃ before m m',
      (s.compile source .semanticAnalysis).2 = .ok before ∧
      ((Compilation.new (unitName (s.count + 1)) source : Compilation Unit).compile
        .semanticAnalysis).1.module = some m ∧
      ((Compilation.new (unitName (s.count + 1)) source : Compilation Unit).compile
        .classGeneration).1.module = some m' ∧
      before.children = m.outlines .empty ∧ after.children = m'.outlines .empty ∧
      before = (after.withoutAdded m).reset ∧
      List.Forall₂ CompiledClass.Additions m.classes m'.classes := by
  obtain ⟨c', answers, hcompile, rfl⟩ := compile_ok h
  obtain ⟨c, m, script, hanalysed, hm, hm', hfollows, hclasses⟩ :=
    Compilation.compile_classGeneration hcompile
  have hfresh : ∀ k ∈ m.classes, k.Fresh := fun k hk => (hclasses k hk).1
  have houtlines := hfollows.outlines_completed hfresh fun k hk => (hclasses k hk).2
  have hbefore : (s.compile source .semanticAnalysis).2 =
      .ok (.ofLabel (unitName (s.count + 1)) (m.outlines .empty)) := by
    rw [compile_answer (α := Unit), hanalysed]
    simp only [Except.map, Compilation.outlines, hm, hlabels]
  have hafter : c'.outlines s.labels = m.completed.outlines .empty := by
    rw [Compilation.outlines, hm', hlabels]
  refine ⟨_, m, m.completed, hbefore, by rw [hanalysed]; exact hm, by rw [hcompile]; exact hm', rfl,
    hafter, ?_, ?_⟩
  · rw [hafter]
    show _ = Outline.reset (.ofLabel _ (Outline.withFirstMembers m.memberCounts _))
    rw [Outline.reset_ofLabel]
    exact congrArg _ houtlines.symm
  · exact List.forall₂_map_right_iff.mpr (List.forall₂_same.mpr fun k hk => (hfresh k hk).additions)

/-- A class that lacks a constructor and a setter, and a statement. -/
def halfWritten : String := "class A \x7b def x = 1; def getX() \x7b x + 1 \x7d \x7d\ny = 2"

/-- The class of the script comes first, then class `A`.  Its first category is the one that goes
with the constructor. -/
theorem Session.compile_additions_halfWritten :
    ∃ after before m, ((new .empty).compile halfWritten .classGeneration).2 = .ok after ∧
      ((new .empty).compile halfWritten .semanticAnalysis).2 = .ok before ∧
      before = (after.withoutAdded m).reset ∧
      (after.get? [2, 0]).map Outline.label = some "Constructors" ∧
      (before.get? [2, 0]).map Outline.label = some "Methods" := by
  have hok : ((new .empty).compile halfWritten .classGeneration).2.isOk = true := by
    decide +kernel
  have hafter : (((new .empty).compile halfWritten .classGeneration).2.toOption.bind
      (·.get? [2, 0])).map Outline.label = some "Constructors" := by decide +kernel
  have hbefore : (((new .empty).compile halfWritten .semanticAnalysis).2.toOption.bind
      (·.get? [2, 0])).map Outline.label = some "Methods" := by decide +kernel
  obtain ⟨t, after, hanswer⟩ := Compilation.exists_of_isOk hok
  obtain ⟨before, m, -, hearlier, -, -, -, -, heq, -⟩ :=
    compile_additions (new .empty) rfl halfWritten after (congrArg Prod.snd hanswer)
  rw [hanswer] at hafter
  rw [hearlier] at hbefore
  exact ⟨after, before, m, congrArg Prod.snd hanswer, hearlier, heq, hafter, hbefore⟩

end ScriptOutline
