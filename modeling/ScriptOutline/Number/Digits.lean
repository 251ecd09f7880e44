/-
ScriptOutline/Number/Digits.lean

The number that decimal digits stand for.
-/

namespace ScriptOutline

/-- The value of decimal digits, the most significant one first. -/
def decimalValue (digits : List Char) : Nat :=
  digits.foldl (fun n c => 10 * n + (c.toNat - '0'.toNat)) 0

/-- The value of a text of at least one decimal digit and nothing else. -/
def digitsValue? (cs : List Char) : Option Nat :=
  if cs.isEmpty then none
  else if cs.all Char.isDigit then some (decimalValue cs)
  else none

/-- Leading zeros do not count. -/
theorem decimalValue_zero_cons (digits : List Char) :
    decimalValue ('0' :: digits) = decimalValue digits := rfl

end ScriptOutline
