/-
ScriptOutline/Number/Binary64.lean

Non-negative numbers of the binary format with 53 significant bits, and the nearest such
number to a decimal literal.  A finite number is `significand · 2 ^ exponent`; in canonical
form the significand is below `2 ^ 53`, and at least `2 ^ 52` unless the exponent is the
least one.  All arithmetic is on natural numbers: a decimal is a quotient, its exponent is
found from the lengths of the two numbers, and one division rounds it, a half going to the
even neighbour.
-/
import ScriptOutline.Number.Digits

namespace ScriptOutline

/-- A non-negative binary number, or the infinity that an overflow gives. -/
inductive Binary64 where
  | finite (significand : Nat) (exponent : Int)
  | infinity
  deriving DecidableEq, Repr

namespace Binary64

/-- The exponent of the subnormal numbers. -/
def leastExponent : Int := -1074

/-- The greatest exponent of a finite number. -/
def greatestExponent : Int := 971

/-- The quotient rounded to the nearest number, a half to the even one. -/
def roundHalfEven (num den : Nat) : Nat :=
  let q := num / den
  let r := num % den
  if 2 * r < den then q
  else if den < 2 * r then q + 1
  else if q % 2 = 0 then q else q + 1

/-- The quotient `num / den` divided by `2 ^ e`, again as a quotient. -/
def scale (num den : Nat) (e : Int) : Nat × Nat :=
  if 0 ≤ e then (num, den * Nat.pow 2 e.toNat) else (num * Nat.pow 2 (-e).toNat, den)

/-- The exponent at which the quotient has 53 bits before the point, or the least exponent
where it would have to be smaller. -/
def exponentFor (num den : Nat) : Int :=
  let e := max leastExponent ((num.log2 : Int) - den.log2 - 53)
  let (n, d) := scale num den e
  if n / d < Nat.pow 2 53 then e else e + 1

/-- The number nearest to a quotient. -/
def ofQuotient (num den : Nat) : Binary64 :=
  if num = 0 then .finite 0 leastExponent
  else
    let e := exponentFor num den
    let (n, d) := scale num den e
    let m := roundHalfEven n d
    let (m, e) := if m = Nat.pow 2 53 then (Nat.pow 2 52, e + 1) else (m, e)
    if greatestExponent < e then .infinity else .finite m e

/-- The number nearest to the decimal written as the digits of `integer`, a point and the
digits of `fraction`. -/
def ofDecimal (integer fraction : List Char) : Binary64 :=
  ofQuotient (decimalValue (integer ++ fraction)) (Nat.pow 10 fraction.length)

example : ofDecimal "1".toList "5".toList = .finite (3 * 2 ^ 51) (-52) := by decide +kernel
example : ofDecimal "0".toList "1".toList = .finite 7205759403792794 (-56) := by decide +kernel

end Binary64

end ScriptOutline
