/-
ScriptOutline/Code/Type.lean

The small parts that all code shares: spans of the source, references to types, and the
modifiers of a declaration.
-/
import ScriptOutline.Text.Join

namespace ScriptOutline

/-! ### Spans -/

/-- The characters from `start` up to, but not including, `stop`. -/
structure Span where
  start : Nat
  stop : Nat
  deriving DecidableEq, Repr

namespace Span

/-- The span of everything that was not written: placeholders and generated code. -/
def unwritten : Span := ⟨0, 0⟩

/-- No character lies in the span. -/
def isEmpty (s : Span) : Bool := s.stop ≤ s.start

/-- From the start of one span to the end of another. -/
def through (first last : Span) : Span := ⟨first.start, last.stop⟩

/-- The text of a span: `3..7`. -/
def text (s : Span) : String := toString s.start ++ ".." ++ toString s.stop

end Span

/-! ### Types -/

/-- A type as it is written: a name, possibly dotted, and a number of array dimensions.
`resolved` is the class that the name stands for, once it is known. -/
structure TypeRef where
  name : String
  dimensions : Nat
  resolved : Option String
  deriving DecidableEq, Repr

namespace TypeRef

/-- A type that is just a name. -/
def named (name : String) : TypeRef := ⟨name, 0, none⟩

/-- The type of a declaration that names none. -/
def dynamic : TypeRef := named "Object"

/-- The same type with that many array dimensions. -/
def withDimensions (t : TypeRef) (dimensions : Nat) : TypeRef := { t with dimensions }

/-- The text of a type: `int[][]`. -/
def text (t : TypeRef) : String := t.name ++ repeated "[]" t.dimensions

end TypeRef

/-- Types written one after the other. -/
def typeList (types : List TypeRef) : String := joinWith ", " (types.map TypeRef.text)

/-! ### Modifiers -/

/-- Who may use a member. -/
inductive Visibility where
  | everyone
  | heirs
  | owner
  deriving DecidableEq, Repr

/-- The word that declares a visibility. -/
def Visibility.word : Visibility → String
  | .everyone => "public"
  | .heirs => "protected"
  | .owner => "private"

/-- The modifiers of a declaration. -/
structure Modifiers where
  visibility : Option Visibility := none
  isStatic : Bool := false
  isFinal : Bool := false
  isAbstract : Bool := false
  isSynchronized : Bool := false
  deriving DecidableEq, Repr

namespace Modifiers

/-- Visible to everyone, and nothing else. -/
def ofPublic : Modifiers := { visibility := some .everyone }

/-- Visible to the owner only, and nothing else. -/
def ofPrivate : Modifiers := { visibility := some .owner }

/-- The words of the modifiers, in their fixed order. -/
def words (m : Modifiers) : List String :=
  (m.visibility.map Visibility.word).toList ++
    (if m.isAbstract then ["abstract"] else []) ++
    (if m.isStatic then ["static"] else []) ++
    (if m.isFinal then ["final"] else []) ++
    (if m.isSynchronized then ["synchronized"] else [])

/-- The words with blanks between them: `private static`. -/
def text (m : Modifiers) : String := joinWith " " m.words

end Modifiers

end ScriptOutline
