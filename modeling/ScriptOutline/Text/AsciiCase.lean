/-
ScriptOutline/Text/AsciiCase.lean

ASCII letters and digits as ranges of code points, and the case of ASCII letters.  Both cases of a
letter lie 32 code points apart, which is what the core library's changes of case add or subtract;
all other characters stay as they are.
-/

namespace ScriptOutline

/-! ### Letters and digits as ranges -/

theorem isUpper_iff {c : Char} : c.isUpper = true ↔ 65 ≤ c.toNat ∧ c.toNat ≤ 90 := by
  delta Char.isUpper
  simp only [decide_eq_true_eq, ge_iff_le, UInt32.le_iff_toNat_le]
  rfl

theorem isLower_iff {c : Char} : c.isLower = true ↔ 97 ≤ c.toNat ∧ c.toNat ≤ 122 := by
  delta Char.isLower
  simp only [Bool.and_eq_true, decide_eq_true_eq, ge_iff_le, UInt32.le_iff_toNat_le]
  rfl

theorem isAlpha_iff {c : Char} : c.isAlpha = true ↔
    (65 ≤ c.toNat ∧ c.toNat ≤ 90) ∨ (97 ≤ c.toNat ∧ c.toNat ≤ 122) := by
  delta Char.isAlpha
  rw [Bool.or_eq_true, isUpper_iff, isLower_iff]

theorem isAlphanum_iff {c : Char} : c.isAlphanum = true ↔
    (65 ≤ c.toNat ∧ c.toNat ≤ 90) ∨ (97 ≤ c.toNat ∧ c.toNat ≤ 122) ∨
      (48 ≤ c.toNat ∧ c.toNat ≤ 57) := by
  delta Char.isAlphanum
  rw [Bool.or_eq_true, isAlpha_iff, Char.isDigit_iff_toNat, or_assoc]
  rfl

/-! ### Changes of case -/

theorem toNat_toLower (c : Char) :
    c.toLower.toNat = if 65 ≤ c.toNat ∧ c.toNat ≤ 90 then c.toNat + 32 else c.toNat := by
  have hdistance : (97 - 65 : UInt32).toNat = 32 := rfl
  rw [← Char.toNat_val, ← Char.toNat_val]
  unfold Char.toLower
  simp only [ge_iff_le, UInt32.le_iff_toNat_le, Char.reduceVal, UInt32.reduceToNat]
  split
  · rw [UInt32.toNat_add, hdistance]
    omega
  · rfl

theorem toNat_toUpper (c : Char) :
    c.toUpper.toNat = if 97 ≤ c.toNat ∧ c.toNat ≤ 122 then c.toNat - 32 else c.toNat := by
  -- the distance is negative, and adding it goes once around
  have hdistance : (65 - 97 : UInt32).toNat = 2 ^ 32 - 32 := rfl
  rw [← Char.toNat_val, ← Char.toNat_val]
  unfold Char.toUpper
  simp only [UInt32.le_iff_toNat_le, Char.reduceVal, UInt32.reduceToNat]
  split
  · rw [UInt32.toNat_add, hdistance]
    omega
  · rfl

/-! ### Letters up to their case -/

/-- The same character, but for the case of an ASCII letter. -/
inductive SameLetter : Char → Char → Prop
  | same (c : Char) : SameLetter c c
  | small {c d : Char} (i : Nat) : i < 26 → c.toNat = 'A'.toNat + i → d.toNat = 'a'.toNat + i →
      SameLetter c d
  | capital {c d : Char} (i : Nat) : i < 26 → c.toNat = 'a'.toNat + i → d.toNat = 'A'.toNat + i →
      SameLetter c d

/-- Characters are the same but for the case of ASCII letters if and only if they have the same
small letter. -/
theorem sameLetter_iff {c d : Char} : SameLetter c d ↔ c.toLower = d.toLower := by
  rw [← Char.toNat_inj, toNat_toLower, toNat_toLower]
  constructor
  · rintro (_ | ⟨i, hi, hc, hd⟩ | ⟨i, hi, hc, hd⟩)
    · rfl
    all_goals
      simp only [Char.reduceToNat] at hc hd
      split <;> split <;> omega
  · intro h
    split at h <;> split at h
    · obtain rfl : c = d := Char.toNat_inj.mp (by omega)
      exact .same c
    · refine .small (c.toNat - 65) (by omega) ?_ ?_ <;> simp only [Char.reduceToNat] <;> omega
    · refine .capital (d.toNat - 65) (by omega) ?_ ?_ <;> simp only [Char.reduceToNat] <;> omega
    · obtain rfl : c = d := Char.toNat_inj.mp h
      exact .same c

end ScriptOutline
