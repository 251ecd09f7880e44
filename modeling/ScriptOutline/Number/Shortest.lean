/-
ScriptOutline/Number/Shortest.lean

The shortest decimal that reads back as a given binary number, and its text.  The decimals
that read back are those of an interval around the number: half the distance to its
neighbours on either side, the ends included when the significand is even.  For one digit,
two digits and so on, the two neighbours of the number on that decimal grid are tried; the
first grid with a hit wins, of two hits the nearer one, and of two equally near the upper.
-/
import ScriptOutline.Number.Binary64

namespace ScriptOutline.Binary64

/-- A positive decimal `significand · 10 ^ exponent`. -/
structure Decimal where
  significand : Nat
  exponent : Int
  deriving DecidableEq, Repr

/-- The decimals that round to `significand · 2 ^ exponent`, as multiples of a quarter of
that power: from `low` to `high` around `value`, all three over `unit`. -/
structure Interval where
  value : Nat
  low : Nat
  high : Nat
  unit : Nat
  closed : Bool

/-- The interval around a canonical number.  Below a power of two the next smaller number is
nearer than the next greater one. -/
def intervalOf (significand : Nat) (exponent : Int) : Interval :=
  let gap := Nat.pow 2 exponent.toNat
  let unit := 4 * Nat.pow 2 (-exponent).toNat
  let below := if significand = Nat.pow 2 52 ∧ leastExponent < exponent then 1 else 2
  { value := 4 * significand * gap
    low := (4 * significand - below) * gap
    high := (4 * significand + 2) * gap
    unit
    closed := significand % 2 = 0 }

/-- The number of decimal digits. -/
def digitCount (n : Nat) : Nat :=
  (Nat.toDigits 10 n).length

/-- The greatest `k` with `10 ^ k ≤ num / den`, for a positive quotient. -/
def log10 (num den : Nat) : Int :=
  if den ≤ num then (digitCount (num / den) : Int) - 1
  else -(digitCount ((den - 1) / num) : Int)

/-- Whether `c · 10 ^ p` lies in the interval. -/
def Interval.holds (i : Interval) (c : Nat) (p : Int) : Bool :=
  let x := c * i.unit * Nat.pow 10 p.toNat
  let low := i.low * Nat.pow 10 (-p).toNat
  let high := i.high * Nat.pow 10 (-p).toNat
  if i.closed then low ≤ x && x ≤ high else low < x && x < high

/-- The decimal of the grid `10 ^ p` that reads back and is nearest to the value. -/
def Interval.onGrid (i : Interval) (p : Int) : Option Nat :=
  let num := i.value * Nat.pow 10 (-p).toNat
  let den := i.unit * Nat.pow 10 p.toNat
  let c := num / den
  match i.holds c p, i.holds (c + 1) p with
  | true, true => if 2 * (num % den) < den then some c else some (c + 1)
  | true, false => some c
  | false, true => some (c + 1)
  | false, false => none

/-- The first of `fuel` ever finer grids, from `10 ^ p` on, with a decimal that reads back. -/
def Interval.firstGrid (i : Interval) : Nat → Int → Option Decimal
  | 0, _ => none
  | fuel + 1, p =>
    match i.onGrid p with
    | some c => some ⟨c, p⟩
    | none => i.firstGrid fuel (p - 1)

/-- The decimal without zeros at its end; `fuel` bounds their number. -/
def Decimal.stripZeros : Nat → Decimal → Decimal
  | 0, d => d
  | fuel + 1, d =>
    if d.significand % 10 = 0 then stripZeros fuel ⟨d.significand / 10, d.exponent + 1⟩ else d

/-- The shortest decimal that reads back as `significand · 2 ^ exponent`.  Seventeen digits
always suffice. -/
def shortest (significand : Nat) (exponent : Int) : Decimal :=
  let i := intervalOf significand exponent
  match i.firstGrid 17 (log10 i.value i.unit) with
  | some d => d.stripZeros 17
  | none => ⟨0, 0⟩

/-! ### Text -/

/-- How decimals are written: positional where the exponent of the leading digit is from
`least` up to, but not including, `bound`, and otherwise with an exponent mark. -/
structure Layout where
  least : Int
  bound : Int
  mark : String

/-- Decimals from `0.0001` below `10 ^ 16` are positional; the mark of an exponent is `e`. -/
def layout : Layout := ⟨-4, 16, "e"⟩

/-- The text of a positive decimal.  A positional one has at least one digit after the
point; one with an exponent has a point only if digits follow it. -/
def Decimal.text (d : Decimal) : String :=
  let digits := Nat.toDigits 10 d.significand
  let lead := d.exponent + digits.length - 1
  if layout.least ≤ lead ∧ lead < layout.bound then
    if 0 ≤ d.exponent then
      String.ofList (digits ++ List.replicate d.exponent.toNat '0') ++ ".0"
    else if 0 ≤ lead then
      String.ofList (digits.take (lead.toNat + 1)) ++ "." ++
        String.ofList (digits.drop (lead.toNat + 1))
    else "0." ++ String.ofList (List.replicate (-lead - 1).toNat '0' ++ digits)
  else
    let rest := digits.drop 1
    String.ofList (digits.take 1) ++ (if rest = [] then "" else "." ++ String.ofList rest) ++
      layout.mark ++ toString lead

/-- The text of a number: its shortest decimal, `0.0` or `inf`. -/
def text : Binary64 → String
  | .infinity => "inf"
  | .finite 0 _ => "0.0"
  | .finite (m + 1) e => (shortest (m + 1) e).text

example : (ofDecimal "0".toList "1".toList).text = "0.1" := by decide +kernel
example : (ofDecimal "100".toList "00".toList).text = "100.0" := by decide +kernel
example : (ofDecimal "0".toList "00001".toList).text = "1e-5" := by decide +kernel
example : (ofDecimal "100000000000000000000000".toList "0".toList).text = "1e23" := by
  decide +kernel

end ScriptOutline.Binary64
