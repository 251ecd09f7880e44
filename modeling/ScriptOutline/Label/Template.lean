/-
ScriptOutline/Label/Template.lean

Templates of labels.  In a template `${name}` stands for the value of the first row of that
name, or for `null` if there is no such row or no value; blanks around the name do not
count.  `$$` stands for a dollar sign, and any other dollar sign for itself.  What is put in
is not looked through again.
-/
import ScriptOutline.Code.Row
import ScriptOutline.Text.Blank

namespace ScriptOutline.Template

/-- The text before the first occurrence of a character, and the text after it. -/
def splitAt (c : Char) : List Char → Option (List Char × List Char)
  | [] => none
  | x :: rest =>
    if x = c then some ([], rest)
    else
      match splitAt c rest with
      | some (before, after) => some (x :: before, after)
      | none => none

theorem length_lt_of_splitAt {c : Char} {cs before after : List Char}
    (h : splitAt c cs = some (before, after)) : after.length < cs.length := by
  induction cs generalizing before with
  | nil => simp [splitAt] at h
  | cons x rest ih =>
    rw [splitAt] at h
    split at h
    · simp only [Option.some.injEq, Prod.mk.injEq] at h
      simp [← h.2]
    · split at h
      · rename_i heq
        simp only [Option.some.injEq, Prod.mk.injEq] at h
        have := ih (h.2 ▸ heq)
        simp only [List.length_cons]
        omega
      · simp at h

/-- The value of a name. -/
def valueOf (rows : List Row) (name : List Char) : List Char :=
  match rows.find? (·.name == String.ofList (trimBlanks name)) with
  | some row => (row.value.getD "null").toList
  | none => "null".toList

/-- A template with the values of the rows put in. -/
def fill (rows : List Row) : List Char → List Char
  | [] => []
  | '$' :: '$' :: rest => '$' :: fill rows rest
  | '$' :: '\x7b' :: rest =>
    match _ : splitAt '\x7d' rest with
    | some (name, after) => valueOf rows name ++ fill rows after
    | none => '$' :: fill rows ('\x7b' :: rest)
  | c :: rest => c :: fill rows rest
termination_by cs => cs.length
decreasing_by
  · simp only [List.length_cons]
    omega
  · rename_i h
    have := length_lt_of_splitAt h
    simp only [List.length_cons]
    omega
  · simp
  · simp

/-- The text of a template. -/
def render (template : String) (rows : List Row) : String :=
  String.ofList (fill rows template.toList)

end ScriptOutline.Template
