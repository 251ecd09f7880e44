/-
ScriptOutline/Text/Join.lean

Texts written one after the other with a separator between them.
-/

namespace ScriptOutline

/-- The texts in order, with `separator` between any two neighbours. -/
def joinWith (separator : String) : List String → String
  | [] => ""
  | [text] => text
  | text :: next :: rest => text ++ separator ++ joinWith separator (next :: rest)

@[simp] theorem joinWith_nil (separator : String) : joinWith separator [] = "" := rfl

@[simp] theorem joinWith_singleton (separator text : String) :
    joinWith separator [text] = text := rfl

@[simp] theorem joinWith_cons_cons (separator text next : String) (rest : List String) :
    joinWith separator (text :: next :: rest) =
      text ++ separator ++ joinWith separator (next :: rest) := rfl

/-- Without a separator, the texts are written one after the other. -/
theorem toList_joinWith_empty (texts : List String) :
    (joinWith "" texts).toList = texts.flatMap String.toList := by
  induction texts with
  | nil => rfl
  | cons text texts ih =>
    cases texts with
    | nil => simp
    | cons next texts =>
      rw [joinWith_cons_cons, String.toList_append, ih, String.toList_append, List.flatMap_cons]
      simp

/-- A text written `n` times. -/
def repeated (text : String) : Nat → String
  | 0 => ""
  | n + 1 => text ++ repeated text n

end ScriptOutline
