/-
ScriptOutline/Proofs/PhaseRequest.lean

Which phase a text asks for.  There are two readings of a trimmed text, and neither mentions how
the text is read: as a numeral, which is decimal digits with a value, possibly after a plus sign
(`Phase.Numeral`), and as a name, which is the name of a phase letter by letter once underscores,
hyphens and spaces are left out and the case of ASCII letters is passed over (`Phase.Spells`).

The reader tries the numeral first and gives up on it when the value is too large.  That order
does not show in what is accepted: a numeral holds a digit, and a name of a phase does not
(`Phase.Numeral.not_spells`).  It shows in what is reported.  A numeral that is not too large is
reported as the plain decimal of its value, everything else as it stands.

Main result: a text is read as a phase if and only if it asks for this phase, and a text that asks
for none is refused with the report described (`Phase.parse_outcome`).
-/
import ScriptOutline.Phase
import ScriptOutline.Text.AsciiCase
import Mathlib.Data.List.Forall2
import Mathlib.Data.Nat.Digits.Defs

namespace ScriptOutline

/-! ### Numerals -/

/-- The number that a decimal digit stands for. -/
def digitOf (c : Char) : Nat := c.toNat - '0'.toNat

theorem decimalValue_eq_ofDigits (digits : List Char) :
    decimalValue digits = Nat.ofDigits 10 (digits.reverse.map digitOf) := by
  rw [Nat.ofDigits_eq_foldr, List.foldr_map, List.foldr_reverse, decimalValue]
  congr 1
  funext n c
  simp [digitOf, Nat.add_comm]

theorem digitsValue?_eq_some_iff {digits : List Char} {n : Nat} :
    digitsValue? digits = some n ↔ digits ≠ [] ∧ (∀ c ∈ digits, c.isDigit = true) ∧
      Nat.ofDigits 10 (digits.reverse.map digitOf) = n := by
  rw [digitsValue?, ← decimalValue_eq_ofDigits]
  cases digits with
  | nil => simp
  | cons d digits => simp [and_assoc]

namespace Phase

/-- A numeral with its value: decimal digits, at least one, possibly after a plus sign. -/
def Numeral (cs : List Char) (n : Nat) : Prop :=
  ∃ sign digits, (sign = [] ∨ sign = ['+']) ∧ cs = sign ++ digits ∧ digits ≠ [] ∧
    (∀ c ∈ digits, c.isDigit = true) ∧ Nat.ofDigits 10 (digits.reverse.map digitOf) = n

theorem numeral?_eq_some_iff {cs : List Char} {n : Nat} :
    numeral? cs = some n ↔ Numeral cs n ∧ n ≤ 255 := by
  simp only [numeral?, Option.filter_eq_some_iff, decide_eq_true_eq, digitsValue?_eq_some_iff]
  apply and_congr_left
  intro _
  split
  · next rest =>
    constructor
    · rintro ⟨hne, hall, hn⟩
      exact ⟨['+'], rest, .inr rfl, rfl, hne, hall, hn⟩
    · rintro ⟨sign, digits, rfl | rfl, hcs, hne, hall, hn⟩
      · -- a plus sign is no digit
        obtain rfl : '+' :: rest = digits := hcs
        have hplus : '+'.isDigit = true := hall '+' List.mem_cons_self
        cases hplus
      · obtain rfl : rest = digits := List.tail_eq_of_cons_eq hcs
        exact ⟨hne, hall, hn⟩
  · next hplus =>
    constructor
    · rintro ⟨hne, hall, hn⟩
      exact ⟨[], cs, .inl rfl, rfl, hne, hall, hn⟩
    · rintro ⟨sign, digits, rfl | rfl, hcs, hne, hall, hn⟩
      · obtain rfl : cs = digits := hcs
        exact ⟨hne, hall, hn⟩
      · exact absurd hcs (hplus digits)

theorem Numeral.unique {cs : List Char} {m n : Nat} (hm : Numeral cs m) (hn : Numeral cs n) :
    m = n := by
  obtain ⟨sign, digits, hsign, rfl, -, hall, rfl⟩ := hm
  obtain ⟨sign', digits', hsign', heq, -, hall', rfl⟩ := hn
  -- the signs are the same, since a plus sign is no digit
  suffices digits = digits' by rw [this]
  rcases hsign with rfl | rfl <;> rcases hsign' with rfl | rfl
  · exact heq
  · obtain rfl : digits = '+' :: digits' := heq
    have hplus : '+'.isDigit = true := hall '+' List.mem_cons_self
    cases hplus
  · obtain rfl : '+' :: digits = digits' := heq
    have hplus : '+'.isDigit = true := hall' '+' List.mem_cons_self
    cases hplus
  · exact List.tail_eq_of_cons_eq heq

/-! ### Names -/

/-- The text is the name of the phase, once the signs between its words are left out. -/
def Spells (cs : List Char) (p : Phase) : Prop :=
  List.Forall₂ SameLetter (cs.filter fun c => c ∉ ['_', '-', ' ']) p.name.toList

theorem spells_iff {cs : List Char} {p : Phase} :
    Spells cs p ↔ p.name.toList.map Char.toLower = nameKey cs := by
  have hkept : (cs.filter fun c => c ∉ ['_', '-', ' ']) =
      cs.filter fun c => c != '_' && c != '-' && c != ' ' := by
    apply List.filter_congr
    intro c _
    rw [Bool.eq_iff_iff]
    simp [and_assoc]
  rw [Spells, nameKey, hkept, eq_comm (a := p.name.toList.map Char.toLower),
    ← List.forall₂_eq_eq_eq, List.forall₂_map_left_iff, List.forall₂_map_right_iff]
  constructor
  · exact List.Forall₂.imp fun _ _ => sameLetter_iff.mp
  · exact List.Forall₂.imp fun _ _ => sameLetter_iff.mpr

/-- No two phases have the same name, be it in small letters. -/
theorem name_injective {p q : Phase}
    (h : p.name.toList.map Char.toLower = q.name.toList.map Char.toLower) : p = q := by
  revert h
  cases p <;> cases q <;> decide

theorem le_toNat_of_mem_name {p : Phase} {c : Char} (hc : c ∈ p.name.toList) :
    'A'.toNat ≤ c.toNat := by
  have hall : p.name.toList.all (fun c => 'A'.toNat ≤ c.toNat) = true := by
    cases p <;> decide
  exact of_decide_eq_true (List.all_eq_true.mp hall c hc)

/-- A numeral is never a name: it has a digit, which is still there when signs are left out. -/
theorem Numeral.not_spells {cs : List Char} {n : Nat} (h : Numeral cs n) (p : Phase) :
    ¬ Spells cs p := by
  rw [spells_iff]
  intro hname
  obtain ⟨sign, digits, -, rfl, hne, hall, -⟩ := h
  obtain ⟨d, hd⟩ := List.exists_mem_of_ne_nil digits hne
  have hdigit : 48 ≤ d.toNat ∧ d.toNat ≤ 57 := Char.isDigit_iff_toNat.mp (hall d hd)
  have hkept : d.toLower ∈ nameKey (sign ++ digits) := by
    apply List.mem_map_of_mem
    rw [List.mem_filter]
    refine ⟨List.mem_append_right sign hd, ?_⟩
    simp only [bne_iff_ne, Bool.and_eq_true]
    refine ⟨⟨?_, ?_⟩, ?_⟩ <;> rintro rfl <;> simp at hdigit
  -- but all characters of a name are letters, and stand behind the digits
  rw [← hname] at hkept
  obtain ⟨c, hc, heq⟩ := List.mem_map.mp hkept
  have hletter : 65 ≤ c.toNat := le_toNat_of_mem_name hc
  rw [← Char.toNat_inj, toNat_toLower, toNat_toLower] at heq
  split at heq <;> split at heq <;> omega

/-! ### Phases by number and by name -/

/-- A test that at most one phase passes finds this phase. -/
theorem find?_all_eq_some_iff {f : Phase → Bool} (h : ∀ p q, f p = true → f q = true → p = q)
    {p : Phase} : all.find? f = some p ↔ f p = true := by
  constructor
  · exact List.find?_some
  · intro hp
    cases hq : all.find? f with
    | none => exact absurd hp (List.find?_eq_none.mp hq p (mem_all p))
    | some q => rw [h q p (List.find?_some hq) hp]

theorem ofNumber?_eq_some_iff {n : Nat} {p : Phase} : ofNumber? n = some p ↔ p.number = n := by
  rw [ofNumber?, find?_all_eq_some_iff, beq_iff_eq]
  intro p q hp hq
  exact number_injective ((beq_iff_eq.mp hp).trans (beq_iff_eq.mp hq).symm)

theorem ofName?_eq_some_iff {cs : List Char} {p : Phase} :
    ofName? cs = some p ↔ Spells cs p := by
  rw [ofName?, find?_all_eq_some_iff, beq_iff_eq, spells_iff]
  intro p q hp hq
  exact name_injective ((beq_iff_eq.mp hp).trans (beq_iff_eq.mp hq).symm)

/-! ### Reading a phase -/

/-- The text asks for the phase: it is a numeral of its number, or its name. -/
def AskedFor (text : String) (p : Phase) : Prop :=
  Numeral (trim text).toList p.number ∨ Spells (trim text).toList p

/-- What a text that asks for no phase is reported as: the plain decimal of a numeral up to 255,
or else the trimmed text. -/
inductive Report (text : String) : String → Prop
  | numeral {n : Nat} : Numeral (trim text).toList n → n ≤ 255 → Report text (toString n)
  | other : (∀ n, Numeral (trim text).toList n → 255 < n) → Report text (trim text)

section Reading

variable {text : String} {p : Phase} {n : Nat}

theorem askedFor_iff_of_numeral (h : numeral? (trim text).toList = some n) :
    AskedFor text p ↔ ofNumber? n = some p := by
  have hn : Numeral (trim text).toList n := (numeral?_eq_some_iff.mp h).1
  rw [AskedFor, or_iff_left (hn.not_spells p), ofNumber?_eq_some_iff]
  constructor
  · exact fun hp => hp.unique hn
  · rintro rfl
    exact hn

theorem report_iff_of_numeral (h : numeral? (trim text).toList = some n) {reported : String} :
    Report text reported ↔ reported = toString n := by
  obtain ⟨hn, hle⟩ := numeral?_eq_some_iff.mp h
  constructor
  · rintro (⟨hm, -⟩ | hlarge)
    · rw [hm.unique hn]
    · exact absurd hle (Nat.not_le_of_lt (hlarge n hn))
  · rintro rfl
    exact .numeral hn hle

/-- Where no numeral is read there is at most one that is too large. -/
theorem lt_of_numeral (h : numeral? (trim text).toList = none) (hn : Numeral (trim text).toList n) :
    255 < n := by
  by_contra hle
  rw [numeral?_eq_some_iff.mpr ⟨hn, Nat.le_of_not_lt hle⟩] at h
  cases h

theorem number_le (p : Phase) : p.number ≤ 255 := by
  cases p <;> decide

theorem askedFor_iff_of_other (h : numeral? (trim text).toList = none) :
    AskedFor text p ↔ ofName? (trim text).toList = some p := by
  have hno : ¬ Numeral (trim text).toList p.number := fun hp =>
    Nat.not_le_of_lt (lt_of_numeral h hp) p.number_le
  rw [AskedFor, or_iff_right hno, ofName?_eq_some_iff]

theorem report_iff_of_other (h : numeral? (trim text).toList = none) {reported : String} :
    Report text reported ↔ reported = trim text := by
  constructor
  · rintro (⟨hn, hle⟩ | -)
    · exact absurd hle (Nat.not_le_of_lt (lt_of_numeral h hn))
    · rfl
  · rintro rfl
    exact .other fun n hn => lt_of_numeral h hn

end Reading

/-- A phase if one was found, or a refusal. -/
def answer (found : Option Phase) (refusal : String) : Except String Phase :=
  match found with
  | some p => .ok p
  | none => .error refusal

theorem answer_eq_ok_iff {found : Option Phase} {refusal : String} {p : Phase} :
    answer found refusal = .ok p ↔ found = some p := by
  cases found <;> simp [answer]

theorem answer_eq_error_iff {found : Option Phase} {refusal reported : String} :
    answer found refusal = .error reported ↔ (∀ p, ¬ found = some p) ∧ reported = refusal := by
  cases found <;> simp [answer, eq_comm]

theorem parse_of_numeral {text : String} {n : Nat} (h : numeral? (trim text).toList = some n) :
    parse text = answer (ofNumber? n) (toString n) := by
  rw [trim, String.toList_ofList] at h
  rw [parse, h]
  rfl

theorem parse_of_other {text : String} (h : numeral? (trim text).toList = none) :
    parse text = answer (ofName? (trim text).toList) (trim text) := by
  rw [trim, String.toList_ofList] at h ⊢
  rw [parse, h]
  rfl

/-- **What a text is read as.**  A text is read as a phase if and only if it asks for this phase,
by number or by name.  A text that asks for no phase is refused, with the plain decimal of a
numeral up to 255 and with the trimmed text otherwise. -/
theorem parse_outcome (text : String) :
    (∀ p, parse text = .ok p ↔ AskedFor text p) ∧
      ∀ reported, parse text = .error reported ↔
        (∀ p, ¬ AskedFor text p) ∧ Report text reported := by
  cases hnumeral : numeral? (trim text).toList with
  | some n =>
    rw [parse_of_numeral hnumeral]
    simp only [askedFor_iff_of_numeral hnumeral, report_iff_of_numeral hnumeral]
    exact ⟨fun _ => answer_eq_ok_iff, fun _ => answer_eq_error_iff⟩
  | none =>
    rw [parse_of_other hnumeral]
    simp only [askedFor_iff_of_other hnumeral, report_iff_of_other hnumeral]
    exact ⟨fun _ => answer_eq_ok_iff, fun _ => answer_eq_error_iff⟩

end Phase

end ScriptOutline
