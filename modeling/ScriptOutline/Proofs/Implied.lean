/-
ScriptOutline/Proofs/Implied.lean

The members that canonicalization makes a class have.  Afterwards a class has a constructor, and
every accessor that one of its properties names.  What is added is a constructor where there was
none and, behind the methods that were there, accessors that the class lacked
(`Property.Lacks`).  Nothing else changes but the names of the accessors in the properties, and
of these the setter of a final property stays as it was (`CompiledClass.completes_canonical`).

All accessors are there then, so a second canonicalization finds nothing to add
(`CompiledClass.canonical_canonical`), whatever was written by hand and whichever names meet.

Canonicalization sets no name of a setter in a final property, and takes none out either.  There
is none to take out: the properties of a module that has just been made name no accessors, and
the resolution of names does not touch them (`CompiledModule.setterName_ofScript`).
-/
import ScriptOutline.Proofs.Accessor
import ScriptOutline.Proofs.Additions
import ScriptOutline.Proofs.StaticCalls

namespace ScriptOutline

/-! ### Before and after -/

/-- The class lacks the method, which is an accessor of the property: no method of the class has
its name and as many parameters.  It was not written, and is static if the property is. -/
structure Property.Lacks (p : Property) (c : CompiledClass) (m : Method) : Prop where
  synthetic : m.synthetic = true
  isStatic : m.modifiers.isStatic = p.modifiers.isStatic
  accessor : (m = p.getterMethod c.name ∧ c.hasMethod p.getter 0 = false) ∨
    (p.modifiers.isFinal = false ∧ m = p.setterMethod c.name ∧ c.hasMethod p.setter 1 = false)

/-- The second property is the first one with the names of accessors that the class has. -/
structure Property.Accessed (c : CompiledClass) (p q : Property) : Prop where
  same : q = { p with getterName := q.getterName, setterName := q.setterName }
  getter : ∃ name, q.getterName = some name ∧ c.hasMethod name 0 = true
  setter : q.modifiers.isFinal = false →
    ∃ name, q.setterName = some name ∧ c.hasMethod name 1 = true
  final : q.modifiers.isFinal = true → q.setterName = p.setterName

/-- The second class is the first one with the members that it implies. -/
structure CompiledClass.Completes (c d : CompiledClass) : Prop where
  same : d = { c with
    constructors := d.constructors, methods := d.methods, properties := d.properties }
  constructors : c.constructors <+: d.constructors ∧ d.constructors ≠ []
  methods : ∃ added, d.methods = c.methods ++ added ∧ ∀ m ∈ added, ∃ p ∈ c.properties, p.Lacks c m
  properties : List.Forall₂ (Property.Accessed d) c.properties d.properties

/-! ### One canonicalization -/

theorem Property.lacks_of_mem {p : Property} {c : CompiledClass} {m : Method}
    (h : m ∈ p.missingAccessors c.name c.methods) : p.Lacks c m := by
  rcases mem_missingAccessors.mp h with ⟨rfl, hnone⟩ | ⟨hfinal, rfl, hnone⟩
  · exact ⟨rfl, rfl, .inl ⟨rfl, hnone⟩⟩
  · exact ⟨rfl, rfl, .inr ⟨hfinal, rfl, hnone⟩⟩

namespace CompiledClass

theorem hasMethod_iff {c : CompiledClass} {name : String} {arity : Nat} :
    c.hasMethod name arity = true ↔ (name, arity) ∈ signatures c.methods := any_hasSignature_iff

theorem accessed_withAccessors {c : CompiledClass} {p : Property} (hp : p ∈ c.properties) :
    Property.Accessed c.canonical p p.withAccessors := by
  obtain ⟨hgetter, hsetter⟩ := mem_signatures_canonical hp
  refine ⟨rfl, ⟨p.getter, rfl, hasMethod_iff.mpr hgetter⟩, fun hfinal => ?_, fun hfinal => ?_⟩
  · have hfinal : p.modifiers.isFinal = false := hfinal
    exact ⟨p.setter, by simp [Property.withAccessors, hfinal], hasMethod_iff.mpr (hsetter hfinal)⟩
  · exact if_pos hfinal

theorem completes_canonical (c : CompiledClass) : c.Completes c.canonical where
  same := rfl
  constructors := by
    rw [canonical]
    cases hc : c.constructors with
    | nil => exact ⟨List.nil_prefix, List.cons_ne_nil _ _⟩
    | cons x xs => exact ⟨List.prefix_rfl, List.cons_ne_nil _ _⟩
  methods := by
    refine ⟨_, rfl, fun m hm => ?_⟩
    obtain ⟨p, hp, hmissing⟩ := List.mem_flatMap.mp hm
    exact ⟨p, hp, Property.lacks_of_mem hmissing⟩
  properties := by
    rw [canonical, List.forall₂_map_right_iff, List.forall₂_same]
    exact fun p hp => accessed_withAccessors hp

/-! ### Two canonicalizations -/

/-- Once all accessors are there, none is missing. -/
theorem missingAccessors_canonical {c : CompiledClass} {p : Property} (hp : p ∈ c.properties) :
    p.withAccessors.missingAccessors c.name c.canonical.methods = [] := by
  obtain ⟨hgetter, hsetter⟩ := mem_signatures_canonical hp
  have hsetter : (p.modifiers.isFinal ||
      c.canonical.methods.any (·.hasSignature p.setter 1)) = true := by
    cases hfinal : p.modifiers.isFinal with
    | true => rfl
    | false => exact any_hasSignature_iff.mpr (hsetter hfinal)
  exact congrArg₂ (· ++ ·) (if_pos (any_hasSignature_iff.mpr hgetter)) (if_pos hsetter)

theorem withAccessors_withAccessors (p : Property) :
    p.withAccessors.withAccessors = p.withAccessors := by
  have hfinal : p.withAccessors.modifiers.isFinal = p.modifiers.isFinal := rfl
  have hsetter : p.withAccessors.withAccessors.setterName = p.withAccessors.setterName := by
    show (if p.withAccessors.modifiers.isFinal then _ else some p.setter) =
      if p.modifiers.isFinal then _ else some p.setter
    rw [hfinal]
    split
    · exact if_pos ‹_›
    · rfl
  exact congrArg (fun setterName => { p.withAccessors with setterName }) hsetter

/-- A class that has been completed is complete. -/
theorem canonical_canonical (c : CompiledClass) : c.canonical.canonical = c.canonical := by
  have hconstructors : c.canonical.constructors.isEmpty = false :=
    List.isEmpty_eq_false_iff.mpr c.completes_canonical.constructors.2
  have hmethods : c.canonical.properties.flatMap
      (·.missingAccessors c.name c.canonical.methods) = [] := by
    rw [List.flatMap_eq_nil_iff]
    exact List.forall_mem_map.mpr fun p hp => missingAccessors_canonical hp
  have hproperties : c.canonical.properties.map Property.withAccessors =
      c.canonical.properties := by
    rw [canonical, List.map_map]
    exact List.map_congr_left fun p _ => withAccessors_withAccessors p
  calc c.canonical.canonical
      = { c.canonical with
          constructors :=
            if c.canonical.constructors.isEmpty then [.generated [] []]
            else c.canonical.constructors
          methods := c.canonical.methods ++
            c.canonical.properties.flatMap (·.missingAccessors c.name c.canonical.methods)
          properties := c.canonical.properties.map Property.withAccessors } := rfl
    _ = c.canonical := by
        rw [hconstructors, hmethods, hproperties, List.append_nil]
        rfl

end CompiledClass

/-! ### Setters of final properties -/

namespace CompiledModule

/-- No property of a module that has just been made names a setter. -/
theorem setterName_ofScript {unitName : String} {s : Script} {m : CompiledModule}
    (h : ofScript unitName s = .ok m) :
    ∀ c ∈ m.classes, ∀ p ∈ c.properties, p.setterName = none := by
  refine forall_mem_ofScript h (fun c hc => ?_) fun d _ c hc => ?_
  · rw [scriptClasses] at hc
    split at hc
    · cases hc
    · obtain rfl := List.mem_singleton.mp hc
      exact List.forall_mem_nil _
  · obtain ⟨members, hmembers, hc⟩ := bind_eq_ok.mp hc
    obtain rfl := Except.ok.inj hc
    exact Members.forall_mem_properties (fun _ _ => rfl) (List.forall_mem_nil _) hmembers

/-- The resolution of names sets no setters, and takes none away. -/
theorem forall_setterName_resolve {m : CompiledModule}
    (h : ∀ c ∈ m.classes, ∀ p ∈ c.properties, p.setterName = none) :
    ∀ c ∈ m.resolve.1.classes, ∀ p ∈ c.properties, p.setterName = none := by
  intro c hc
  obtain ⟨i, hi⟩ := List.mem_iff_getElem?.mp hc
  rw [show m.resolve.1.classes = (resolveClasses m.classNames m.classes).1 from rfl,
    resolveClasses_getElem?] at hi
  obtain ⟨d, hd, rfl⟩ := Option.map_eq_some_iff.mp hi
  have hd := h d (List.mem_of_getElem? hd)
  split
  · rw [CompiledClass.bound_eq]
    exact List.forall_mem_map.mpr hd
  · exact hd

/-- Canonicalization completes every class, whatever the classes are, and a second one changes
nothing.  If the module comes from a script, with its names resolved or not, then no final property
has a setter. -/
theorem canonical_completes (m : CompiledModule) :
    List.Forall₂ CompiledClass.Completes m.classes m.canonical.classes ∧
      m.canonical.canonical = m.canonical ∧
      ∀ unitName s m₀, ofScript unitName s = .ok m₀ → m = m₀ ∨ m = m₀.resolve.1 →
        ∀ c ∈ m.canonical.classes, ∀ p ∈ c.properties,
          p.modifiers.isFinal = true → p.setterName = none := by
  refine ⟨?_, ?_, fun unitName s m₀ h₀ hm => List.forall_mem_map.mpr fun c hc =>
    List.forall_mem_map.mpr fun p hp hfinal => ?_⟩
  · rw [canonical, List.forall₂_map_right_iff, List.forall₂_same]
    exact fun c _ => c.completes_canonical
  · have hclasses : (m.classes.map CompiledClass.canonical).map CompiledClass.canonical =
        m.classes.map CompiledClass.canonical := by
      rw [List.map_map]
      exact List.map_congr_left fun c _ => c.canonical_canonical
    exact congrArg (fun classes => { m with classes }) hclasses
  · have hnone : ∀ c ∈ m.classes, ∀ p ∈ c.properties, p.setterName = none := by
      have h₀ := setterName_ofScript h₀
      rcases hm with rfl | rfl
      · exact h₀
      · exact forall_setterName_resolve h₀
    have hfinal : p.modifiers.isFinal = true := hfinal
    exact (if_pos hfinal).trans (hnone c hc p hp)

/-- A getter that is written, and a method that has the name of a getter but takes a parameter. -/
def overloaded : String :=
  "class P \x7b int x; final int y = 1; static int z\n" ++
  "def getX(a) \x7b a \x7d\ndef getZ() \x7b 2 \x7d \x7d"

theorem canonical_completes_overloaded :
    ∃ s m, Script.parse overloaded = .ok s ∧ ofScript "Script1" s = .ok m ∧
      m.resolve.1.canonical.classes.map (fun c => c.methods.map Method.signature) =
        [[("getX", 1), ("getZ", 0), ("getX", 0), ("setX", 1), ("getY", 0), ("setZ", 1)]] ∧
      (∃ c ∈ m.resolve.1.canonical.classes, ∃ p ∈ c.properties, p.modifiers.isFinal = true) ∧
      ∀ c ∈ m.resolve.1.canonical.classes, ∀ p ∈ c.properties,
        p.modifiers.isFinal = true → p.setterName = none := by
  obtain ⟨s, m, hs, hm, hcheck⟩ := exists_of_modulePasses
    (fun m => m.resolve.1.canonical.classes.map (fun c => c.methods.map Method.signature) =
        [[("getX", 1), ("getZ", 0), ("getX", 0), ("setX", 1), ("getY", 0), ("setZ", 1)]] ∧
      ∃ c ∈ m.resolve.1.canonical.classes, ∃ p ∈ c.properties, p.modifiers.isFinal = true)
    overloaded (by decide +kernel)
  obtain ⟨hmethods, hfinal⟩ := of_decide_eq_true hcheck
  exact ⟨s, m, hs, hm, hmethods, hfinal,
    (canonical_completes m.resolve.1).2.2 _ s m hm (.inr rfl)⟩

end CompiledModule

end ScriptOutline
