/-
ScriptOutline/Proofs/Accessor.lean

The signatures of the methods of a class, and which accessors canonicalization adds to them.  A
signature is a name and a number of parameters (`Method.signature`).  An accessor is added only if
no method that is written has its signature (`Property.mem_signatures_missingAccessors`), so it
never meets such a method.

It can meet another accessor.  Different names can be the same in camel case: `aB` and `a_b` are
both read by `getAB`.  Such properties clash if they need an accessor that is not written, since
each of them gets it (`Property.Clashes`).  Methods with different signatures still have different
ones afterwards exactly if no two properties clash, and then every accessor is the only method of
its signature (`CompiledClass.nodup_signatures_canonical`).
-/
import Mathlib.Data.List.Nodup
import ScriptOutline.Module.Canonical
import ScriptOutline.Proofs.Progression

namespace ScriptOutline

/-! ### Signatures -/

/-- What tells the methods of a class apart: the name and the number of parameters. -/
def Method.signature (m : Method) : String × Nat := (m.name, m.parameters.length)

theorem Method.hasSignature_iff {m : Method} {name : String} {arity : Nat} :
    m.hasSignature name arity = true ↔ m.signature = (name, arity) := by
  simp [hasSignature, signature]

/-- The signatures of methods, in their order. -/
def signatures (methods : List Method) : List (String × Nat) := methods.map Method.signature

theorem any_hasSignature_iff {methods : List Method} {name : String} {arity : Nat} :
    methods.any (·.hasSignature name arity) = true ↔ (name, arity) ∈ signatures methods := by
  simp [signatures, Method.hasSignature_iff]

/-- Where signatures differ, a signature that occurs belongs to one method only. -/
theorem exists_filter_hasSignature {methods : List Method} (h : (signatures methods).Nodup)
    {name : String} {arity : Nat} (hmem : (name, arity) ∈ signatures methods) :
    ∃ m, methods.filter (·.hasSignature name arity) = [m] := by
  have hcount : (signatures methods).count (name, arity) = 1 := List.count_eq_one_of_mem h hmem
  rw [← List.length_eq_one_iff, ← hcount, signatures, List.count, List.countP_map,
    List.countP_eq_length_filter]
  refine congrArg List.length (List.filter_congr fun m _ => ?_)
  rw [Bool.eq_iff_iff, Method.hasSignature_iff]
  exact beq_iff_eq.symm

/-- A method that is added unless one of its signature is written. -/
theorem mem_signatures_unlessWritten (methods : List Method) (m : Method) {x : String × Nat} :
    x ∈ signatures (if methods.any (·.hasSignature m.name m.parameters.length) then [] else [m]) ↔
      x ∉ signatures methods ∧ x = m.signature := by
  split
  · next hwritten =>
    have hwritten : m.signature ∈ signatures methods := any_hasSignature_iff.mp hwritten
    simp only [signatures, List.map_nil, List.not_mem_nil, false_iff]
    rintro ⟨hnew, rfl⟩
    exact hnew hwritten
  · next hnew =>
    have hnew : m.signature ∉ signatures methods := mt any_hasSignature_iff.mpr hnew
    simp only [signatures, List.map_cons, List.map_nil, List.mem_singleton]
    exact ⟨fun hx => ⟨hx ▸ hnew, hx⟩, fun hx => hx.2⟩

/-! ### Missing accessors -/

namespace Property

variable {p q : Property} {owner : String} {methods : List Method}

/-- The signatures of the accessors that are not written. -/
theorem mem_signatures_missingAccessors {x : String × Nat} :
    x ∈ signatures (p.missingAccessors owner methods) ↔
      x ∉ signatures methods ∧
        (x = (p.getter, 0) ∨ p.modifiers.isFinal = false ∧ x = (p.setter, 1)) := by
  have hgetter := mem_signatures_unlessWritten methods (p.getterMethod owner) (x := x)
  have hsetter := mem_signatures_unlessWritten methods (p.setterMethod owner) (x := x)
  rw [missingAccessors, signatures, List.map_append, List.mem_append, and_or_left]
  refine or_congr hgetter ?_
  cases p.modifiers.isFinal with
  | true => simp
  | false => rwa [Bool.false_or, eq_self, true_and]

/-- A getter is no setter: it has no parameter. -/
theorem nodup_signatures_missingAccessors (p : Property) (owner : String)
    (methods : List Method) : (signatures (p.missingAccessors owner methods)).Nodup := by
  have hboth : (signatures [p.getterMethod owner, p.setterMethod owner]).Nodup := by
    simp [signatures, Method.signature, getterMethod, setterMethod, Method.generated]
  have hsublist : (p.missingAccessors owner methods).Sublist
      ([p.getterMethod owner] ++ [p.setterMethod owner]) := by
    refine List.Sublist.append ?_ ?_
    · split
      · exact List.nil_sublist _
      · exact List.Sublist.refl _
    · split
      · exact List.nil_sublist _
      · exact List.Sublist.refl _
  exact hboth.sublist (hsublist.map Method.signature)

/-- The properties have accessors of the same names, and both need one that is not written. -/
def Clashes (p : Property) (methods : List Method) (q : Property) : Prop :=
  p.accessorSuffix = q.accessorSuffix ∧
    ((p.getter, 0) ∉ signatures methods ∨
      p.modifiers.isFinal = false ∧ q.modifiers.isFinal = false ∧
        (p.setter, 1) ∉ signatures methods)

instance : Decidable (p.Clashes methods q) := inferInstanceAs (Decidable (_ ∧ _))

theorem getter_eq_iff : p.getter = q.getter ↔ p.accessorSuffix = q.accessorSuffix :=
  String.append_right_inj "get"

theorem setter_eq_iff : p.setter = q.setter ↔ p.accessorSuffix = q.accessorSuffix :=
  String.append_right_inj "set"

/-- Properties clash if there is an accessor that is added for both. -/
theorem clashes_iff (owner : String) :
    p.Clashes methods q ↔ ∃ x, x ∈ signatures (p.missingAccessors owner methods) ∧
      x ∈ signatures (q.missingAccessors owner methods) := by
  simp only [mem_signatures_missingAccessors]
  constructor
  · rintro ⟨hsuffix, hnew | ⟨hpfinal, hqfinal, hnew⟩⟩
    · have hgetter : p.getter = q.getter := getter_eq_iff.mpr hsuffix
      exact ⟨_, ⟨hnew, .inl rfl⟩, hnew, .inl (by rw [hgetter])⟩
    · have hsetter : p.setter = q.setter := setter_eq_iff.mpr hsuffix
      exact ⟨_, ⟨hnew, .inr ⟨hpfinal, rfl⟩⟩, hnew, .inr ⟨hqfinal, by rw [hsetter]⟩⟩
  · rintro ⟨x, ⟨hnew, rfl | ⟨hpfinal, rfl⟩⟩, -, hq | ⟨hqfinal, hq⟩⟩
    · exact ⟨getter_eq_iff.mp (congrArg Prod.fst hq), .inl hnew⟩
    · exact absurd (congrArg Prod.snd hq) (show 0 ≠ 1 by decide)
    · exact absurd (congrArg Prod.snd hq) (show 1 ≠ 0 by decide)
    · exact ⟨setter_eq_iff.mp (congrArg Prod.fst hq), .inr ⟨hpfinal, hqfinal, hnew⟩⟩

end Property

/-! ### Classes -/

namespace CompiledClass

variable {c : CompiledClass}

theorem signatures_canonical (c : CompiledClass) :
    signatures c.canonical.methods = signatures c.methods ++
      c.properties.flatMap fun p => signatures (p.missingAccessors c.name c.methods) := by
  simp only [signatures, canonical, List.map_append, List.map_flatMap]

/-- Every accessor that a property names is there. -/
theorem mem_signatures_canonical {p : Property} (hp : p ∈ c.properties) :
    (p.getter, 0) ∈ signatures c.canonical.methods ∧
      (p.modifiers.isFinal = false → (p.setter, 1) ∈ signatures c.canonical.methods) := by
  have hmem {x : String × Nat}
      (hx : x = (p.getter, 0) ∨ p.modifiers.isFinal = false ∧ x = (p.setter, 1)) :
      x ∈ signatures c.canonical.methods := by
    rw [signatures_canonical]
    by_cases hwritten : x ∈ signatures c.methods
    · exact List.mem_append_left _ hwritten
    · exact List.mem_append_right _
        (List.mem_flatMap.mpr ⟨p, hp, Property.mem_signatures_missingAccessors.mpr ⟨hwritten, hx⟩⟩)
  exact ⟨hmem (.inl rfl), fun hfinal => hmem (.inr ⟨hfinal, rfl⟩)⟩

/-- What canonicalization adds to methods of different signatures. -/
theorem nodup_signatures_canonical_iff (h : (signatures c.methods).Nodup) :
    (signatures c.canonical.methods).Nodup ↔
      c.properties.Pairwise fun p q => ¬ p.Clashes c.methods q := by
  have hnew : ∀ x ∈ signatures c.methods,
      ∀ y ∈ c.properties.flatMap fun p => signatures (p.missingAccessors c.name c.methods),
        x ≠ y := by
    rintro x hx y hy rfl
    obtain ⟨p, -, hp⟩ := List.mem_flatMap.mp hy
    exact (Property.mem_signatures_missingAccessors.mp hp).1 hx
  rw [signatures_canonical, List.nodup_append, and_iff_right h, and_iff_left hnew,
    List.nodup_flatMap,
    and_iff_right fun p _ => p.nodup_signatures_missingAccessors c.name c.methods]
  refine List.Pairwise.iff fun p q => ?_
  rw [Property.clashes_iff c.name, Function.onFun_apply, List.Disjoint]
  push Not
  exact Iff.rfl

/-- Methods of different signatures have different ones after canonicalization exactly if no two
properties need the same accessor.  Then every property names its getter, and its setter unless it
is final, and there is no other method that the name could mean. -/
theorem nodup_signatures_canonical (c : CompiledClass) (h : (signatures c.methods).Nodup) :
    ((signatures c.canonical.methods).Nodup ↔
      c.properties.Pairwise fun p q => ¬ p.Clashes c.methods q) ∧
    ((signatures c.canonical.methods).Nodup → ∀ p ∈ c.canonical.properties,
      (∃ getter m, p.getterName = some getter ∧
        c.canonical.methods.filter (·.hasSignature getter 0) = [m]) ∧
      (p.modifiers.isFinal = false → ∃ setter m, p.setterName = some setter ∧
        c.canonical.methods.filter (·.hasSignature setter 1) = [m])) := by
  refine ⟨nodup_signatures_canonical_iff h, fun hnodup => List.forall_mem_map.mpr fun p hp => ?_⟩
  obtain ⟨hgetter, hsetter⟩ := mem_signatures_canonical hp
  refine ⟨?_, fun hfinal => ?_⟩
  · obtain ⟨m, hm⟩ := exists_filter_hasSignature hnodup hgetter
    exact ⟨p.getter, m, rfl, hm⟩
  · obtain ⟨m, hm⟩ := exists_filter_hasSignature hnodup (hsetter hfinal)
    refine ⟨p.setter, m, ?_, hm⟩
    have hfinal : p.modifiers.isFinal = false := hfinal
    simp [Property.withAccessors, hfinal]

end CompiledClass

/-! ### Classes of a source -/

namespace Compilation

/-- The first class of a source when canonicalization starts. -/
def firstResolved (source : String) : Option CompiledClass :=
  ((new "Script1" source : Compilation Unit).compile .semanticAnalysis).1.module.bind
    (·.classes.head?)

/-- A class with a getter that is written, and with a final property. -/
def writtenGetter : String :=
  "class P \x7b int x; final int y = 1; int getX() \x7b 42 \x7d \x7d"

theorem nodup_signatures_canonical_writtenGetter :
    ∃ c, firstResolved writtenGetter = some c ∧ (signatures c.methods).Nodup ∧
      (signatures c.canonical.methods).Nodup ∧ ∀ p ∈ c.canonical.properties,
        ∃ getter m, p.getterName = some getter ∧
          c.canonical.methods.filter (·.hasSignature getter 0) = [m] := by
  have hclass : ∃ c ∈ firstResolved writtenGetter, (signatures c.methods).Nodup ∧
      c.properties.Pairwise fun p q => ¬ p.Clashes c.methods q := by decide +kernel
  obtain ⟨c, hc, hmethods, hproperties⟩ := hclass
  obtain ⟨hiff, hnames⟩ := c.nodup_signatures_canonical hmethods
  have hcanonical := hiff.mpr hproperties
  exact ⟨c, hc, hmethods, hcanonical, fun p hp => (hnames hcanonical p hp).1⟩

/-- A class with two properties of one name in camel case. -/
def sameAccessors : String := "class A \x7b int aB; int a_b \x7d"

/-- Both get a getter and a setter, so that there are two methods of each signature. -/
theorem signatures_canonical_sameAccessors :
    ∃ c, firstResolved sameAccessors = some c ∧ (signatures c.methods).Nodup ∧
      signatures c.canonical.methods = [("getAB", 0), ("setAB", 1), ("getAB", 0), ("setAB", 1)] ∧
      ¬ (signatures c.canonical.methods).Nodup := by
  have hclass : ∃ c ∈ firstResolved sameAccessors, signatures c.methods = [] ∧
      signatures c.canonical.methods =
        [("getAB", 0), ("setAB", 1), ("getAB", 0), ("setAB", 1)] := by decide +kernel
  obtain ⟨c, hc, hmethods, hcanonical⟩ := hclass
  refine ⟨c, hc, ?_, hcanonical, ?_⟩
  · rw [hmethods]
    exact List.nodup_nil
  · rw [hcanonical]
    decide

end Compilation

end ScriptOutline
