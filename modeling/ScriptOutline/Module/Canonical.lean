/-
ScriptOutline/Module/Canonical.lean

Members that a class has without their being written: a constructor without parameters if
there is no other, a getter for every property, and a setter for every property that is not
final.  An accessor that is written already, as far as name and number of parameters tell,
is not added again.
-/
import ScriptOutline.Code.Declaration
import ScriptOutline.Module.Conversion

namespace ScriptOutline

namespace Property

/-- The part of an accessor's name that stands for the property. -/
def accessorSuffix (p : Property) : String := CamelCase.upperCamel p.name

def getter (p : Property) : String := "get" ++ p.accessorSuffix

def setter (p : Property) : String := "set" ++ p.accessorSuffix

/-- Accessors are public, and static where the property is. -/
def accessorModifiers (p : Property) : Modifiers :=
  { Modifiers.ofPublic with isStatic := p.modifiers.isStatic }

/-- The field behind the property, seen from inside its class. -/
def backing (p : Property) (owner : String) : Expression := .unwritten (.field p.name owner)

/-- The getter `T getX() { return this.@x }`. -/
def getterMethod (p : Property) (owner : String) : Method :=
  .generated p.getter p.accessorModifiers p.type []
    (.block [.unwritten (.ret (p.backing owner))])

/-- The setter `void setX(T value) { this.@x = value }`. -/
def setterMethod (p : Property) (owner : String) : Method :=
  .generated p.setter p.accessorModifiers (.named "void") [⟨"value", p.type, none⟩]
    (.block [.ofExpression (.unwritten (.binary (p.backing owner) "="
      (.unwritten (.variableRef "value" none (some .parameter)))))])

/-- The accessors that a class with the given methods lacks for the property. -/
def missingAccessors (p : Property) (owner : String) (methods : List Method) : List Method :=
  (if methods.any (·.hasSignature p.getter 0) then [] else [p.getterMethod owner]) ++
    (if p.modifiers.isFinal || methods.any (·.hasSignature p.setter 1) then []
      else [p.setterMethod owner])

theorem mem_missingAccessors {p : Property} {owner : String} {methods : List Method} {m : Method} :
    m ∈ p.missingAccessors owner methods ↔
      (m = p.getterMethod owner ∧ methods.any (·.hasSignature p.getter 0) = false) ∨
      (p.modifiers.isFinal = false ∧ m = p.setterMethod owner ∧
        methods.any (·.hasSignature p.setter 1) = false) := by
  rw [missingAccessors, List.mem_append]
  refine or_congr ?_ ?_
  · cases methods.any (·.hasSignature p.getter 0) <;> simp
  · cases p.modifiers.isFinal <;> cases methods.any (·.hasSignature p.setter 1) <;> simp

/-- A property of both accessors is one of all that are missing. -/
theorem forall_mem_missingAccessors {P : Method → Prop} {p : Property} {owner : String}
    (hgetter : P (p.getterMethod owner)) (hsetter : P (p.setterMethod owner))
    (methods : List Method) : ∀ m ∈ p.missingAccessors owner methods, P m := by
  intro m hm
  rcases mem_missingAccessors.mp hm with ⟨rfl, -⟩ | ⟨-, rfl, -⟩
  · exact hgetter
  · exact hsetter

/-- The property with the names of its accessors. -/
def withAccessors (p : Property) : Property :=
  { p with
    getterName := some p.getter
    setterName := if p.modifiers.isFinal then p.setterName else some p.setter }

end Property

/-- A class with all members that it implies. -/
def CompiledClass.canonical (c : CompiledClass) : CompiledClass :=
  { c with
    constructors := if c.constructors.isEmpty then [.generated [] []] else c.constructors
    methods := c.methods ++ c.properties.flatMap (·.missingAccessors c.name c.methods)
    properties := c.properties.map Property.withAccessors }

def CompiledModule.canonical (m : CompiledModule) : CompiledModule :=
  { m with classes := m.classes.map CompiledClass.canonical }

end ScriptOutline
