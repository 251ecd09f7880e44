/-
ScriptOutline/Proofs/ScriptName.lean

The name of the script class, made from the name of a unit.  A unit may be named like a file; a
class has to be named by a word of the language.

Camel case loses no letter and no digit of a text: the words that a text is cut into, put together
again, are its letters and digits in their order (`CamelCase.flatten_words`).  So the words of an
ASCII text are of ASCII letters and digits, and changing their case keeps them so.  What the name
starts with is the first character of a word, as a capital if it is a letter; if it is a digit or
if there is no word at all, the name is made to start with `Script`.  A word that starts with a
capital is no keyword (`IsClassName.ofChars`).

Main result: the script class of a unit with an ASCII name has a legal class name, and keeps the
name of a unit that is `Script` with a number behind it (`CompiledModule.scriptClass_named`).
-/
import Mathlib
import ScriptOutline.Proofs.Conversion
import ScriptOutline.Proofs.Reading
import ScriptOutline.Text.AsciiCase

namespace ScriptOutline

namespace CamelCase

open Letter

/-! ### Words -/

/-- A piece is cut into words without a loss. -/
theorem flatten_wordsFrom {mode : Mode} {current piece : List Char}
    (h : piece = [] → current = []) :
    (wordsFrom mode current piece).flatten = current.reverse ++ piece := by
  fun_induction wordsFrom mode current piece with
  | case1 mode current => rw [h rfl]; rfl
  | case2 mode current c => simp
  | case3 mode current c n rest hcut ih => simp [ih]
  | case4 mode current c n rest hcut hcut' ih => simp [ih]
  | case5 mode current c n rest hcut hcut' ih => simp [ih]

/-- The pieces hold all letters and numbers. -/
theorem flatten_pieces (cs : List Char) : (pieces cs).flatten = cs.filter isAlphanumeric := by
  induction cs with
  | nil => rfl
  | cons c rest ih =>
    rw [pieces]
    by_cases hc : isAlphanumeric c = true
    · rw [if_pos hc, List.filter_cons_of_pos hc, ← ih]
      cases pieces rest <;> rfl
    · rw [if_neg hc, List.filter_cons_of_neg hc, ← ih]
      rfl

/-- A text is cut into words without a loss of letters and numbers. -/
theorem flatten_words (cs : List Char) : (words cs).flatten = cs.filter isAlphanumeric := by
  have hpiece : List.flatten ∘ wordsFrom .boundary [] = id := by
    funext piece
    exact flatten_wordsFrom fun _ => rfl
  rw [← flatten_pieces, words, List.flatMap_def, List.flatten_flatten, List.map_map, hpiece,
    List.map_id]

/-! ### The case of ASCII words -/

/-- ASCII characters are changed as the core library changes them; none of them is a sigma. -/
theorem lowercase_eq_map {cs : List Char} (h : ∀ c ∈ cs, c.toNat < 128) :
    lowercase cs = cs.map Char.toLower := by
  induction cs with
  | nil => rfl
  | cons c rest ih =>
    have hc : c.toNat < 128 := h c List.mem_cons_self
    have hsigma : ¬ (c = 'Σ' ∧ rest = []) := by
      rintro ⟨rfl, -⟩
      simp at hc
    rw [lowercase, if_neg hsigma, Letter.toLower, if_pos hc,
      ih fun d hd => h d (List.mem_cons_of_mem c hd)]
    rfl

theorem capitalize_cons {c : Char} {rest : List Char} (h : ∀ d ∈ c :: rest, d.toNat < 128) :
    capitalize (c :: rest) = c.toUpper :: rest.map Char.toLower := by
  rw [capitalize, Letter.toUpper, if_pos (h c List.mem_cons_self),
    lowercase_eq_map fun d hd => h d (List.mem_cons_of_mem c hd)]
  rfl

theorem isAlphanum_toUpper {c : Char} (h : c.isAlphanum = true) : c.toUpper.isAlphanum = true := by
  rw [isAlphanum_iff] at h ⊢
  rw [toNat_toUpper]
  split <;> omega

theorem isAlphanum_toLower {c : Char} (h : c.isAlphanum = true) : c.toLower.isAlphanum = true := by
  rw [isAlphanum_iff] at h ⊢
  rw [toNat_toLower]
  split <;> omega

/-- A letter becomes a capital, a digit stays as it is. -/
theorem isUpper_or_isDigit_toUpper {c : Char} (h : c.isAlphanum = true) :
    c.toUpper.isUpper = true ∨ c.toUpper.isDigit = true := by
  by_cases halpha : c.isAlpha = true
  · exact .inl ((Char.isUpper_toUpper_eq_isAlpha c).trans halpha)
  · rw [Char.isAlphanum, Bool.or_eq_true, or_iff_right halpha] at h
    have hlower : ¬ c.isLower = true := fun hc => halpha (by rw [Char.isAlpha, hc, Bool.or_true])
    exact .inr (by rwa [Char.toUpper_eq_of_not_isLower hlower])

/-- A word of ASCII letters and digits, capitalized, is still of these, and does not start with a
small letter. -/
theorem capitalize_alphanum {w : List Char} (h : ∀ c ∈ w, c.isAlphanum = true) :
    (∀ c ∈ capitalize w, c.isAlphanum = true) ∧
      ∀ c ∈ (capitalize w).head?, c.isUpper = true ∨ c.isDigit = true := by
  cases w with
  | nil => simp [capitalize]
  | cons c rest =>
    rw [capitalize_cons fun d hd => toNat_lt_of_isAlphanum (h d hd)]
    obtain ⟨hc, hrest⟩ := List.forall_mem_cons.mp h
    constructor
    · rw [List.forall_mem_cons, List.forall_mem_map]
      exact ⟨isAlphanum_toUpper hc, fun d hd => isAlphanum_toLower (hrest d hd)⟩
    · rintro _ ⟨⟩
      exact isUpper_or_isDigit_toUpper hc

/-- The same for words one after the other. -/
theorem flatMap_capitalize_alphanum {ws : List (List Char)}
    (h : ∀ w ∈ ws, ∀ c ∈ w, c.isAlphanum = true) :
    (∀ c ∈ ws.flatMap capitalize, c.isAlphanum = true) ∧
      ∀ c ∈ (ws.flatMap capitalize).head?, c.isUpper = true ∨ c.isDigit = true := by
  induction ws with
  | nil => simp
  | cons w ws ih =>
    obtain ⟨hw, hws⟩ := List.forall_mem_cons.mp h
    obtain ⟨hall, hhead⟩ := capitalize_alphanum hw
    obtain ⟨hall', hhead'⟩ := ih hws
    rw [List.flatMap_cons]
    refine ⟨List.forall_mem_append.mpr ⟨hall, hall'⟩, ?_⟩
    -- the first word that is not empty comes first
    rw [List.head?_append]
    cases hfirst : (capitalize w).head? with
    | none => exact hhead'
    | some c => exact fun d hd => hhead d (hfirst ▸ hd)

/-- The letters and numbers of an ASCII text are ASCII letters and digits. -/
theorem isAlphanum_of_mem_words {cs : List Char} (h : ∀ c ∈ cs, c.toNat < 128) :
    ∀ w ∈ words cs, ∀ c ∈ w, c.isAlphanum = true := by
  intro w hw c hc
  have hmem : c ∈ cs.filter isAlphanumeric := by
    rw [← flatten_words]
    exact List.mem_flatten_of_mem hw hc
  obtain ⟨hc, halphanumeric⟩ := List.mem_filter.mp hmem
  rwa [isAlphanumeric, if_pos (h c hc)] at halphanumeric

/-! ### One word -/

/-- Where no capital follows, a word does not end. -/
theorem wordsFrom_eq_singleton {mode : Mode} {current : List Char} {c : Char} {rest : List Char}
    (hmode : mode = .upper → isUpper c = false) (hrest : ∀ d ∈ rest, isUpper d = false) :
    wordsFrom mode current (c :: rest) = [current.reverse ++ c :: rest] := by
  induction rest generalizing mode current c with
  | nil => simp [wordsFrom]
  | cons n rest ih =>
    obtain ⟨hn, hrest⟩ := List.forall_mem_cons.mp hrest
    rw [wordsFrom, if_neg (by simp [hn]), if_neg, ih (fun _ => hn) hrest]
    · simp
    · rintro ⟨hupper, hc, -⟩
      rw [hmode hupper] at hc
      cases hc

theorem pieces_eq_singleton {cs : List Char} (h : ∀ c ∈ cs, isAlphanumeric c = true) :
    pieces cs = [cs] := by
  induction cs with
  | nil => rfl
  | cons c rest ih =>
    obtain ⟨hc, hrest⟩ := List.forall_mem_cons.mp h
    rw [pieces, if_pos hc, ih hrest]

/-- A word that is written with one capital at its start is kept. -/
theorem upperCamel_eq_self {c : Char} {rest : List Char} (hc : c.isUpper = true)
    (hrest : ∀ d ∈ rest, d.isAlphanum = true ∧ d.isUpper = false) :
    upperCamel (String.ofList (c :: rest)) = String.ofList (c :: rest) := by
  have hall : ∀ d ∈ c :: rest, d.isAlphanum = true := by
    refine List.forall_mem_cons.mpr ⟨?_, fun d hd => (hrest d hd).1⟩
    rw [isAlphanum_iff]
    exact .inl (isUpper_iff.mp hc)
  have hword : words (c :: rest) = [c :: rest] := by
    rw [words, pieces_eq_singleton fun d hd => isAlphanumeric_of_isAlphanum (hall d hd),
      List.flatMap_singleton]
    apply wordsFrom_eq_singleton
    · rintro ⟨⟩
    · intro d hd
      obtain ⟨hd, hupper⟩ := hrest d hd
      rw [isUpper, if_pos (toNat_lt_of_isAlphanum hd), hupper]
  have hupper : c.toUpper = c :=
    Char.toUpper_eq_of_not_isLower (Char.not_isLower_of_isUpper hc)
  have hlower : rest.map Char.toLower = rest := by
    rw [List.map_congr_left (g := id), List.map_id]
    intro d hd
    apply Char.toLower_eq_of_not_isUpper
    rw [(hrest d hd).2]
    exact Bool.false_ne_true
  rw [upperCamel, String.toList_ofList, hword, List.flatMap_singleton,
    capitalize_cons fun d hd => toNat_lt_of_isAlphanum (hall d hd), hupper, hlower]

end CamelCase

/-! ### Class names -/

/-- A legal class name: ASCII letters and digits, a capital first.  It is no keyword, and the
grammar reads it as a name. -/
structure IsClassName (name : String) : Prop where
  starts : ∃ c rest, name.toList = c :: rest ∧ c.isUpper = true
  parts : ∀ c ∈ name.toList, c.isAlphanum = true
  free : name ∉ Grammar.keywords
  reads : Grammar.Reads Grammar.identifier name.toList [] (· = name)

/-- Keywords do not start with a capital. -/
theorem not_mem_keywords_of_isUpper {c : Char} {rest : List Char} (hc : c.isUpper = true) :
    String.ofList (c :: rest) ∉ Grammar.keywords := by
  have hall : Grammar.keywords.all (fun w => w.toList.head?.all fun c => !c.isUpper) = true := by
    decide
  intro hmem
  have hsmall := List.all_eq_true.mp hall _ hmem
  rw [String.toList_ofList] at hsmall
  simp [hc] at hsmall

/-- A capital with letters and digits behind it is a class name. -/
theorem IsClassName.ofChars {c : Char} {rest : List Char} (hc : c.isUpper = true)
    (hrest : ∀ d ∈ rest, d.isAlphanum = true) : IsClassName (String.ofList (c :: rest)) := by
  have hstart : Grammar.isNameStart c = true := by
    rw [Grammar.isNameStart, Char.isAlpha, hc]
    rfl
  have hparts : ∀ d ∈ rest, Grammar.isNamePart d = true := by
    intro d hd
    rw [Grammar.isNamePart, hrest d hd]
    rfl
  have hfree : String.ofList (c :: rest) ∉ Grammar.keywords := not_mem_keywords_of_isUpper hc
  -- the word is read to the end of the text, and no blanks are behind it
  have hword : Grammar.Reads Grammar.word (c :: (rest ++ [])) ([] ++ [])
      (· = String.ofList (c :: rest)) := Grammar.Reads.word hstart hparts (by simp)
  rw [List.append_nil rest] at hword
  refine ⟨⟨c, rest, String.toList_ofList, hc⟩, ?_, hfree, ?_⟩
  · rw [String.toList_ofList, List.forall_mem_cons, isAlphanum_iff]
    exact ⟨.inl (isUpper_iff.mp hc), hrest⟩
  · rw [String.toList_ofList]
    exact Grammar.Reads.identifier (Grammar.Solid.word hstart) hword hfree (by simp)
      Grammar.Solid.nil

theorem script_append (cs : List Char) :
    "Script" ++ String.ofList cs = String.ofList ('S' :: ("cript".toList ++ cs)) := by
  rw [← String.toList_inj, String.toList_append, String.toList_ofList, String.toList_ofList,
    String.toList_ofList]
  rfl

/-- Letters and digits behind `Script` make a class name. -/
theorem IsClassName.script {cs : List Char} (h : ∀ c ∈ cs, c.isAlphanum = true) :
    IsClassName ("Script" ++ String.ofList cs) := by
  rw [script_append]
  apply IsClassName.ofChars rfl
  rw [List.forall_mem_append]
  exact ⟨List.all_eq_true.mp (by decide), h⟩

/-- The name of the script class of a unit with an ASCII name is a class name. -/
theorem isClassName_scriptClassName {unitName : String}
    (h : ∀ c ∈ unitName.toList, c.toNat < 128) : IsClassName (scriptClassName unitName) := by
  obtain ⟨hall, hhead⟩ := CamelCase.flatMap_capitalize_alphanum
    (CamelCase.isAlphanum_of_mem_words h)
  rw [scriptClassName, CamelCase.upperCamel, String.toList_ofList]
  generalize (CamelCase.words unitName.toList).flatMap CamelCase.capitalize = name at hall hhead
  cases name with
  | nil =>
    have hnone : ∀ c ∈ ([] : List Char), c.isAlphanum = true := by simp
    exact IsClassName.script hnone
  | cons c rest =>
    dsimp only
    split
    · exact IsClassName.script hall
    · next hdigit =>
      have hc : c.isUpper = true := (hhead c rfl).resolve_right hdigit
      exact IsClassName.ofChars hc fun d hd => hall d (List.mem_cons_of_mem c hd)

/-- The name of a unit that is `Script` with a number behind it is kept. -/
theorem scriptClassName_numbered (k : Nat) :
    scriptClassName ("Script" ++ toString k) = "Script" ++ toString k := by
  have hrest : ∀ c ∈ "cript".toList ++ Nat.toDigits 10 k,
      c.isAlphanum = true ∧ c.isUpper = false := by
    rw [List.forall_mem_append]
    refine ⟨by simp, fun c hc => ?_⟩
    have hdigit : c.isDigit = true := Nat.isDigit_of_mem_toDigits (by decide) (by decide) hc
    have hrange := Char.isDigit_iff_toNat.mp hdigit
    rw [← Bool.not_eq_true, isUpper_iff, isAlphanum_iff]
    simp only [Char.reduceToNat] at hrange
    omega
  have hname : "Script" ++ toString k =
      String.ofList ('S' :: ("cript".toList ++ Nat.toDigits 10 k)) := script_append _
  rw [hname, scriptClassName, CamelCase.upperCamel_eq_self rfl hrest, String.toList_ofList]
  rfl

/-! ### The script class -/

namespace CompiledModule

/-- The script class is the class that is named after the unit. -/
theorem name_of_isScript {unitName : String} {s : Script} {m : CompiledModule}
    (h : ofScript unitName s = .ok m) :
    ∀ c ∈ m.classes, c.isScript = true → c.name = scriptClassName unitName := by
  refine forall_mem_ofScript
    (P := fun c => c.isScript = true → c.name = scriptClassName unitName) h ?_ ?_
  · intro c hc _
    rw [scriptClasses_eq] at hc
    split at hc
    · cases hc
    · rw [List.mem_singleton.mp hc, ScriptOutline.scriptClass]
  · intro d _ c hd hscript
    rw [(CompiledClass.ofDeclaration_follows hd).isScript] at hscript
    cases hscript

/-- **The script class has a name of the language.**  Whatever the script is, the script class of
a unit with an ASCII name has a class name: it starts with a capital, is made of ASCII letters and
digits, is no keyword, and is read as a name by the grammar.  A unit that is named `Script` with a
number behind it has a script class of the same name. -/
theorem scriptClass_named (s : Script) :
    (∀ unitName m, (∀ c ∈ unitName.toList, c.toNat < 128) → ofScript unitName s = .ok m →
      ∀ c ∈ m.classes, c.isScript = true → IsClassName c.name) ∧
    ∀ (k : Nat) m, ofScript ("Script" ++ toString k) s = .ok m →
      ∀ c ∈ m.classes, c.isScript = true → c.name = "Script" ++ toString k := by
  refine ⟨fun unitName m hascii hm c hc hscript => ?_, fun k m hm c hc hscript => ?_⟩
  · rw [name_of_isScript hm c hc hscript]
    exact isClassName_scriptClassName hascii
  · rw [name_of_isScript hm c hc hscript, scriptClassName_numbered]

/-- A script with nothing in it. -/
def emptyScript : Script := ⟨[], [], []⟩

/-- The module of the empty script: the script class alone. -/
def emptyModule (unitName : String) : CompiledModule :=
  ⟨unitName, [ScriptOutline.scriptClass (scriptClassName unitName) [] []]⟩

/-- A unit named after a file that starts with a digit, and one that is named by its number. -/
theorem scriptClass_named_fileStem :
    ofScript "2-my script" emptyScript = .ok (emptyModule "2-my script") ∧
      (∀ c ∈ (emptyModule "2-my script").classes,
        c.name = "Script2MyScript" ∧ IsClassName c.name) ∧
      ofScript ("Script" ++ toString 7) emptyScript = .ok (emptyModule ("Script" ++ toString 7)) ∧
      ∀ c ∈ (emptyModule ("Script" ++ toString 7)).classes, c.name = "Script7" := by
  obtain ⟨hlegal, hkept⟩ := scriptClass_named emptyScript
  have hascii : ("2-my script".toList.all fun c => c.toNat < 128) = true := by decide
  have hname : scriptClassName "2-my script" = "Script2MyScript" := by decide +kernel
  have hconverted : ∀ unitName, ofScript unitName emptyScript = .ok (emptyModule unitName) :=
    fun _ => rfl
  have hscript : ∀ unitName, ∀ c ∈ (emptyModule unitName).classes, c.isScript = true := by
    simp [emptyModule, ScriptOutline.scriptClass]
  refine ⟨hconverted _, fun c hc => ⟨?_, ?_⟩, hconverted _, fun c hc => ?_⟩
  · rw [name_of_isScript (hconverted _) c hc (hscript _ c hc), hname]
  · exact hlegal _ _ (fun d hd => of_decide_eq_true (List.all_eq_true.mp hascii d hd))
      (hconverted _) c hc (hscript _ c hc)
  · exact hkept 7 _ (hconverted _) c hc (hscript _ c hc)

end CompiledModule

end ScriptOutline
