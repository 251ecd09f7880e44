/-
ScriptOutline/Proofs/Signs.lean

The operators of a tier, and how its parser reads them before any text.

Signs are prefixes of one another, and a tier may take the first characters of an operator
that is not its own: `&` of `&&`, `*` of `**=`, `<=` of `<=>`.  What is left then starts with
one of a few characters that no operand starts with (`Barren`), so the tier gives the
characters back.  Which operator interferes with which is settled once, over the table of
operators (`fits`).
-/
import ScriptOutline.Proofs.Operand

namespace ScriptOutline.Grammar

open ScriptOutline.Grammar.Parser

/-! ### Where no operator stands -/

/-- The first characters of what ends an operand that is no operator. -/
def endingHeads : List Char := [')', ']', '.']

/-- The text is at its end, or starts with a closing bracket or a point. -/
def Ending (cs : List Char) : Prop := ∀ c ∈ cs.head?, c ∈ endingHeads

namespace Ending

theorem nil : Ending [] := by simp [Ending]

variable {cs : List Char} (h : Ending cs)
include h

theorem solid : Solid cs := solid_of_heads h (by decide)

theorem noName : ∀ c ∈ cs.head?, isNameStart c = false := forall_of_heads h (by decide)

theorem symbol {s : String} (hs : s.toList.head?.any (fun c => !endingHeads.contains c) = true) :
    Fails (Grammar.symbol s) cs :=
  Fails.symbol h.solid (not_starts_of_head hs (forall_of_heads h (by decide)))

theorem keyword (w : String) : Fails (Grammar.keyword w) cs := Fails.keyword h.solid h.noName

end Ending

/-! ### Signs -/

/-- The text behind a sign that is the start of an operator. -/
def behindSign (s : String) (o : Operator) (gap : Gap) (cs : List Char) : List Char :=
  match o.text.toList.drop s.length with
  | [] => cs
  | c :: w => c :: (w ++ (gap.chars ++ cs))

/-- Before an operator the parser reads its sign or nothing. -/
structure Finds (s : String) (p : Parser String) : Prop where
  reads : ∀ o gap cs, Solid cs → s.toList.isPrefixOf o.text.toList = true →
    Reads p (operatorText o gap cs) (behindSign s o gap cs) (· = s)
  fails : ∀ o gap cs, s.toList.isPrefixOf o.text.toList = false → Fails p (operatorText o gap cs)
  ending : ∀ cs, Ending cs → Fails p cs

/-- The first of some signs that an operator starts with. -/
def firstPrefix (signs : List String) (operator : String) : Option String :=
  signs.find? fun s => s.toList.isPrefixOf operator.toList

/-- The signs are those of a tier: they find its own operators, and of the operators of looser
tiers they leave something with which no operand starts. -/
def fits (tier : Nat) (signs : List String) : Bool :=
  allOperators fun t o =>
    (t != tier || firstPrefix signs o == some o) &&
      (!decide (tier < t) || (firstPrefix signs o).all fun s =>
        (o.toList.drop s.length).head?.any leftoverHeads.contains)

/-- A sign that does not start as an ending does. -/
def isInner (s : String) : Bool :=
  isSign s && s.toList.head?.any fun c => !endingHeads.contains c

/-- An operator that starts with a sign is read up to where the sign ends. -/
theorem symbol_behindSign {s : String} (hs : isSign s = true) (o : Operator) (gap : Gap)
    {cs : List Char} (hcs : Solid cs) (hs' : s.toList.isPrefixOf o.text.toList = true) :
    Reads (symbol s) (operatorText o gap cs) (behindSign s o gap cs) fun _ => True := by
  obtain ⟨hne, -⟩ := isSign_iff.mp hs
  obtain ⟨w, hw⟩ := List.isPrefixOf_iff_prefix.mp hs'
  have hsolid := solid_operatorText o gap cs
  have hdrop : o.text.toList.drop s.length = w := by
    rw [← hw, ← String.length_toList, List.drop_left]
  rw [operatorText, ← hw] at hsolid ⊢
  rw [behindSign, hdrop]
  cases w with
  | nil =>
    rw [List.append_nil] at hsolid ⊢
    exact Reads.symbol hsolid gap.blank hcs
  | cons c w =>
    -- something is left of the operator, and no comment starts with it
    have hinner := o.all
      (f := fun _ o => (o.toList.drop 1).all fun c => !isBlank c && c != '/') (by decide)
    have hmem : c ∈ o.text.toList.drop 1 := by
      obtain ⟨d, ds, hd⟩ := List.exists_cons_of_ne_nil hne
      rw [← hw, hd]
      simp
    have hc : isBlank c = false ∧ c ≠ '/' := by
      simpa using List.all_eq_true.mp hinner c hmem
    rw [List.append_assoc] at hsolid ⊢
    exact Reads.symbol_tight hsolid (Solid.cons hc.1 hc.2)

theorem sign_finds {s : String} (hs : isInner s = true) : Finds s (sign s) where
  reads o gap _ hcs hs' := (symbol_behindSign (Bool.and_eq_true_iff.mp hs).1 o gap hcs hs').bind
    fun _ _ => Reads.pure rfl
  fails o gap cs hs' :=
    (symbol_operatorText_of_not_starts (Bool.and_eq_true_iff.mp hs).1 o gap cs hs').bind
  ending _ hcs := (hcs.symbol (Bool.and_eq_true_iff.mp hs).2).bind

theorem wordSign_finds : Finds "in" (wordSign "in") where
  reads o gap cs hcs hs := by
    have hin : o.text = "in" := by
      have hops := o.all
        (f := fun _ o => !"in".toList.isPrefixOf o.toList || o == "in") (by decide)
      rw [hs, Bool.not_true, Bool.false_or] at hops
      exact eq_of_beq hops
    have hleft : behindSign "in" o gap cs = cs := by
      rw [behindSign, hin]
      rfl
    rw [hleft]
    exact (Reads.keyword (solid_operatorText o gap cs) (word_operatorText gap cs hin) gap.blank
      hcs).bind fun _ _ => Reads.pure rfl
  fails o gap cs hs := by
    have hne : o.text ≠ "in" := by
      intro h
      rw [h] at hs
      revert hs
      decide
    exact (Fails.keyword (solid_operatorText o gap cs) (noName_operatorText gap cs hne)).bind
  ending _ hcs := (hcs.keyword "in").bind

/-! ### The operators of a tier -/

/-- The parser reads the operators of a tier, and gets stuck at looser ones. -/
structure ReadsSigns (tier : Nat) (p : Parser String) : Prop where
  own : ∀ o gap cs, Solid cs → o.tier = tier → Reads p (operatorText o gap cs) cs (· = o.text)
  looser : ∀ o gap cs, Solid cs → tier < o.tier → Fails p (operatorText o gap cs) ∨
    ∃ cs', Reads p (operatorText o gap cs) cs' (fun _ => True) ∧ Barren cs'
  ending : ∀ cs, Ending cs → Fails p cs

namespace ReadsSigns

/-- Alternatives that find the signs of a tier, in their order, read its operators. -/
theorem firstOf {tier : Nat} (x : String × Parser String)
    (xs : List (String × Parser String)) (hfinds : ∀ y ∈ x :: xs, Finds y.1 y.2)
    (hfits : fits tier ((x :: xs).map Prod.fst) = true) :
    ReadsSigns tier (Parser.firstOf x.2 (xs.map Prod.snd)) := by
  -- the first alternative whose sign the operator starts with is the one that reads
  have hfound (o : Operator) (gap : Gap) (cs : List Char) (hcs : Solid cs) (s : String)
      (hs : firstPrefix ((x :: xs).map Prod.fst) o.text = some s) :
      Reads (Parser.firstOf x.2 (xs.map Prod.snd)) (operatorText o gap cs)
        (behindSign s o gap cs) (· = s) := by
    rw [firstPrefix, List.find?_map, Option.map_eq_some_iff] at hs
    obtain ⟨y, hy, rfl⟩ := hs
    obtain ⟨hstarts, before, after, hsplit, hbefore⟩ := List.find?_eq_some_iff_append.mp hy
    have hread := (hfinds y (hsplit ▸ by simp)).reads o gap cs hcs hstarts
    have hfail : ∀ z ∈ before, Fails z.2 (operatorText o gap cs) := fun z hz =>
      (hfinds z (hsplit ▸ by simp [hz])).fails o gap cs (by simpa using hbefore z hz)
    cases before with
    | nil =>
      obtain ⟨rfl, -⟩ := List.cons.inj hsplit
      exact hread.firstOf_head
    | cons z before =>
      rw [List.cons_append] at hsplit
      obtain ⟨rfl, rfl⟩ := List.cons.inj hsplit
      rw [List.map_append, List.map_cons]
      refine Reads.firstOf_tail (hfail x (List.mem_cons_self ..)) ?_ hread _
      exact List.forall_mem_map.mpr fun z' hz => hfail z' (List.mem_cons_of_mem _ hz)
  constructor
  · intro o gap cs hcs ht
    have hown := hfound o gap cs hcs o.text (by
      simpa [ht] using (Bool.and_eq_true_iff.mp (o.all hfits)).1)
    have hleft : behindSign o.text o gap cs = cs := by
      rw [behindSign, ← String.length_toList, List.drop_length]
    rwa [hleft] at hown
  · intro o gap cs hcs ht
    cases hs : firstPrefix ((x :: xs).map Prod.fst) o.text with
    | none =>
      have hnone : ∀ y ∈ x :: xs, Fails y.2 (operatorText o gap cs) := fun y hy =>
        (hfinds y hy).fails o gap cs
          ((Bool.not_eq_true _).mp (List.find?_eq_none.mp hs y.1 (List.mem_map_of_mem hy)))
      refine .inl (Fails.firstOf (hnone x (List.mem_cons_self ..)) ?_)
      exact List.forall_mem_map.mpr fun y hy => hnone y (List.mem_cons_of_mem _ hy)
    | some s =>
      refine .inr ⟨behindSign s o gap cs, (hfound o gap cs hcs s hs).mono fun _ _ => trivial, ?_⟩
      have hlooser : (o.text.toList.drop s.length).head?.any leftoverHeads.contains = true := by
        have hfit := (Bool.and_eq_true_iff.mp (o.all hfits)).2
        rw [decide_eq_true ht, hs] at hfit
        exact hfit
      obtain ⟨c, hc, hhead⟩ := (Option.any_eq_true _ _).mp hlooser
      obtain ⟨w, hw⟩ := List.head?_eq_some_iff.mp hc
      rw [behindSign, hw]
      rintro d hd
      cases hd
      exact List.contains_iff_mem.mp hhead
  · intro cs hcs
    refine Fails.firstOf ((hfinds x (List.mem_cons_self ..)).ending cs hcs) ?_
    exact List.forall_mem_map.mpr fun y hy => (hfinds y (List.mem_cons_of_mem _ hy)).ending cs hcs

theorem congr {tier : Nat} {p q : Parser String}
    (hreads : ∀ cs rest holds, Reads p cs rest holds → Reads q cs rest holds)
    (hfails : ∀ cs, Fails p cs → Fails q cs) (h : ReadsSigns tier p) : ReadsSigns tier q where
  own o gap cs hcs ht := hreads _ _ _ (h.own o gap cs hcs ht)
  looser o gap cs hcs ht := (h.looser o gap cs hcs ht).imp (hfails _) fun ⟨cs', hp, hcs'⟩ =>
    ⟨cs', hreads _ _ _ hp, hcs'⟩
  ending cs hcs := hfails _ (h.ending cs hcs)

theorem signs {tier : Nat} {s : String} {others : List String}
    (hsigns : (s :: others).all isInner = true) (hfits : fits tier (s :: others) = true) :
    ReadsSigns tier (Grammar.signs s others) := by
  have hfinds : ∀ y ∈ (s :: others).map fun r => (r, Grammar.sign r), Finds y.1 y.2 :=
    List.forall_mem_map.mpr fun r hr => sign_finds (List.all_eq_true.mp hsigns r hr)
  have hnames : ((s :: others).map fun r => (r, Grammar.sign r)).map Prod.fst = s :: others := by
    rw [List.map_map]
    exact List.map_id _
  have h := ReadsSigns.firstOf (s, Grammar.sign s) (others.map fun r => (r, Grammar.sign r))
    hfinds (hnames ▸ hfits)
  rwa [List.map_map] at h

theorem sign {tier : Nat} {s : String} (hsigns : [s].all isInner = true)
    (hfits : fits tier [s] = true) : ReadsSigns tier (Grammar.sign s) :=
  (ReadsSigns.signs hsigns hfits).congr
    (fun _ _ _ => Reads.of_firstOf_one) (fun _ => Fails.of_firstOf_one)

theorem eitherSign {tier : Nat} {s r : String}
    (hsigns : [s, r].all isInner = true) (hfits : fits tier [s, r] = true) :
    ReadsSigns tier (orElse (Grammar.sign s) (Grammar.sign r)) :=
  (ReadsSigns.signs hsigns hfits).congr
    (fun _ _ _ => Reads.of_firstOf_two) (fun _ => Fails.of_firstOf_two)

end ReadsSigns

/-! ### The tiers of the grammar -/

theorem power_readsSigns : ReadsSigns 0 (sign "**") := .sign (by decide) (by decide)

theorem multiplicative_readsSigns : ReadsSigns 1 (signs "*" ["/", "%"]) :=
  .signs (by decide) (by decide)

theorem additive_readsSigns : ReadsSigns 2 (orElse (sign "+") (sign "-")) :=
  .eitherSign (by decide) (by decide)

theorem shift_readsSigns : ReadsSigns 3 (orElse (sign "<<") (sign ">>")) :=
  .eitherSign (by decide) (by decide)

theorem relational_readsSigns :
    ReadsSigns 4 (firstOf (sign "<=") [sign ">=", sign "<", sign ">", wordSign "in"]) := by
  refine ReadsSigns.firstOf ("<=", sign "<=")
    [(">=", sign ">="), ("<", sign "<"), (">", sign ">"), ("in", wordSign "in")] ?_ (by decide)
  simp only [List.forall_mem_cons, List.not_mem_nil, false_implies, implies_true, and_true]
  exact ⟨sign_finds (by decide), sign_finds (by decide), sign_finds (by decide),
    sign_finds (by decide), wordSign_finds⟩

theorem equality_readsSigns : ReadsSigns 5 (signs "==~" ["==", "!=", "<=>", "=~"]) :=
  .signs (by decide) (by decide)

theorem bitwiseAnd_readsSigns : ReadsSigns 6 (sign "&") := .sign (by decide) (by decide)

theorem bitwiseXor_readsSigns : ReadsSigns 7 (sign "^") := .sign (by decide) (by decide)

theorem bitwiseOr_readsSigns : ReadsSigns 8 (sign "|") := .sign (by decide) (by decide)

theorem logicalAnd_readsSigns : ReadsSigns 9 (sign "&&") := .sign (by decide) (by decide)

theorem logicalOr_readsSigns : ReadsSigns 10 (sign "||") := .sign (by decide) (by decide)

theorem assignment_readsSigns :
    ReadsSigns assignmentTier (signs "**=" ["+=", "-=", "*=", "/=", "%=", "="]) :=
  .signs (by decide) (by decide)

end ScriptOutline.Grammar
