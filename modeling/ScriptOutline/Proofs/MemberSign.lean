/-
ScriptOutline/Proofs/MemberSign.lean

What the parser keeps of the sign between an object and its member.  A member is a suffix, read in
the same way for each of the signs `.`, `?.` and `*.` (`suffix_member`).  Without arguments the
sign becomes the accessor of the expression.  With arguments only one bit of it is kept: whether it
was `?.`.  So a call with `*.` is read as the call with `.`, and is written back as that
(`memberNode`).

Objects and arguments are any texts that the parser reads as such (`ObjectText`, `ArgumentsText`).
Members can be put one behind the other, since an object with a member is an object again
(`ObjectText.member`).  Spans are left out of the comparison (`Expression.Same`).

The main result is `parse_member`.
-/
import Mathlib.Tactic.Choose
import ScriptOutline.Proofs.ReadBack
import ScriptOutline.Proofs.Revision

namespace ScriptOutline

/-! ### The same code at other places -/

/-- Code without its spans. -/
def Revision.unplaced : Revision where
  span _ := .unwritten

/-- The expressions differ at most in spans. -/
def Expression.Same (e e' : Expression) : Prop := e.revised .unplaced = e'.revised .unplaced

/-- What a formula leaves out of its spans is left out of all code. -/
theorem Expression.revised_unplaced (e : Expression) :
    e.unplaced.revised .unplaced = e.revised .unplaced := by
  fun_induction Expression.unplaced e with
  | case1 left operation right span type ihl ihr =>
    simp only [Expression.revised, ExpressionNode.revised, ihl, ihr]
    rfl
  | case2 first last inclusive span type ihf ihl =>
    simp only [Expression.revised, ExpressionNode.revised, ihf, ihl]
    rfl
  | case3 node span type => rfl

namespace Grammar

open ScriptOutline.Grammar.Parser

/-! ### Signs and names -/

/-- The signs of members. -/
def memberSigns : List Accessor := [.plain, .safe, .spread]

theorem memberSigns_cases {a : Accessor} (ha : a ∈ memberSigns) :
    a = .plain ∨ a = .safe ∨ a = .spread := by
  simpa [memberSigns] using ha

/-- The name of a member, with the blanks before and behind it. -/
structure MemberName where
  name : Name
  before : List Char
  behind : List Char
  blank_before : ∀ c ∈ before, isBlank c = true
  blank_behind : ∀ c ∈ behind, isBlank c = true

/-- A sign and the name of a member, before a text. -/
def memberText (a : Accessor) (m : MemberName) (cs : List Char) : List Char :=
  a.symbol.toList ++ (m.before ++ (m.name.chars ++ (m.behind ++ cs)))

theorem memberText_append (a : Accessor) (m : MemberName) (cs rest : List Char) :
    memberText a m cs ++ rest = memberText a m (cs ++ rest) := by
  simp only [memberText, List.append_assoc]

/-- Behind the sign there is a blank or a name. -/
theorem MemberName.head (m : MemberName) (cs : List Char) :
    ∀ c ∈ (m.before ++ (m.name.chars ++ cs)).head?, (isBlank c || isNameStart c) = true := by
  rw [List.head?_append]
  cases hbefore : m.before with
  | nil =>
    rintro c ⟨⟩
    rw [m.name.start, Bool.or_true]
  | cons d ds =>
    rintro c ⟨⟩
    rw [m.blank_before d (hbefore ▸ List.mem_cons_self ..), Bool.true_or]

section Sign

variable {a : Accessor} (ha : a ∈ memberSigns) (m : MemberName) (cs : List Char)
include ha

theorem solid_memberText : Solid (memberText a m cs) := by
  rcases memberSigns_cases ha with rfl | rfl | rfl <;> exact Solid.cons (by decide) (by decide)

/-- No other sign that a suffix starts with is found in its place. -/
theorem symbol_memberText {s : String} (hs : s ∈ suffixSigns) (hne : s ≠ a.symbol) :
    Fails (symbol s) (memberText a m cs) := by
  refine Fails.symbol (solid_memberText ha m cs) ?_
  intro hstarts
  rcases memberSigns_cases ha with rfl | rfl | rfl
  · -- of the other signs with a point in front, the second character is neither blank nor a name
    have hsigns : ∀ s ∈ suffixSigns, s ≠ "." → s.toList.head?.any (· != '.') = true ∨
        s.toList.tail.head?.any (fun c => !(isBlank c || isNameStart c)) = true := by decide
    rcases hsigns s hs hne with hfirst | hsecond
    · exact not_starts_of_head hfirst (by rintro c ⟨⟩; decide) hstarts
    · cases hw : s.toList with
      | nil => rw [hw] at hsecond; cases hsecond
      | cons d w =>
        rw [hw] at hsecond hstarts
        refine not_starts_of_head hsecond ?_ (List.cons_prefix_cons.mp hstarts).2
        intro c hc
        rw [m.head _ c hc, Bool.not_true]
  · have hsigns : ∀ s ∈ suffixSigns, s ≠ "?." → s.toList.head?.any (· != '?') = true := by decide
    exact not_starts_of_head (hsigns s hs hne) (by rintro c ⟨⟩; decide) hstarts
  · have hsigns : ∀ s ∈ suffixSigns, s ≠ "*." → s.toList.head?.any (· != '*') = true := by decide
    exact not_starts_of_head (hsigns s hs hne) (by rintro c ⟨⟩; decide) hstarts

theorem reads_sign : Reads (symbol a.symbol) (memberText a m cs)
    (m.name.chars ++ (m.behind ++ cs)) fun _ => True :=
  Reads.symbol (solid_memberText ha m cs) m.blank_before (solid_name m.name _)

theorem reads_accessor : Reads accessor (memberText a m cs)
    (m.name.chars ++ (m.behind ++ cs)) (· = a) := by
  have hsign := reads_sign ha m cs
  have hother {s : String} (hs : s ∈ suffixSigns) (hne : s ≠ a.symbol) :=
    symbol_memberText ha m cs hs hne
  rcases memberSigns_cases ha with rfl | rfl | rfl
  · exact Reads.firstOf_skip (hother (s := "?.") (by decide) (by decide)).bind
      (Reads.firstOf_skip (hother (s := "*.") (by decide) (by decide)).bind
        (Reads.firstOf_head (hsign.bind fun _ _ => Reads.pure rfl)))
  · exact Reads.firstOf_head (hsign.bind fun _ _ => Reads.pure rfl)
  · exact Reads.firstOf_skip (hother (s := "?.") (by decide) (by decide)).bind
      (Reads.firstOf_head (hsign.bind fun _ _ => Reads.pure rfl))

end Sign

/-! ### Arguments -/

/-- The first characters of what may stand behind a member. -/
def memberEnds : List Char := [')', ']', '.', '?', '*']

/-- The text is at its end, or starts with a closing bracket or the sign of another member. -/
def MemberEnd (cs : List Char) : Prop := ∀ c ∈ cs.head?, c ∈ memberEnds

namespace MemberEnd

variable {cs : List Char} (h : MemberEnd cs)
include h

theorem solid : Solid cs := solid_of_heads h (by decide)

theorem part : ∀ c ∈ cs.head?, isNamePart c = false := forall_of_heads h (by decide)

theorem symbol {s : String}
    (hs : s.toList.head?.any (fun c => !memberEnds.contains c) = true) :
    Fails (Grammar.symbol s) cs :=
  Fails.symbol h.solid (not_starts_of_head hs (forall_of_heads h (by decide)))

end MemberEnd

theorem Closed.memberEnd {cs : List Char} (h : Closed cs) : MemberEnd cs := by
  intro c hc
  have hbracket := h c hc
  simp only [List.mem_cons, List.not_mem_nil, or_false] at hbracket
  rcases hbracket with rfl | rfl <;> decide

/-- The text is the arguments of a member, or it is empty and there are none. -/
structure ArgumentsText (cs : List Char) (arguments : Option Expression) : Prop where
  solid : ∀ rest, MemberEnd rest → Solid (cs ++ rest)
  part : ∀ rest, MemberEnd rest → ∀ c ∈ (cs ++ rest).head?, isNamePart c = false
  reads : ∀ n, cs.length ≤ n → ∀ rest, MemberEnd rest →
    Reads (optional (memberArguments (level n))) (cs ++ rest) rest fun x =>
      x.map (·.revised .unplaced) = arguments.map (·.revised .unplaced)

/-- The expression is a member of an object, up to spans. -/
def IsMember (object : Expression) (name : String) (a : Accessor) (arguments : Option Expression)
    (e : Expression) : Prop :=
  ∃ object' arguments' stop, e = (Suffix.member name a arguments').apply object' stop ∧
    object'.Same object ∧
    arguments'.map (·.revised .unplaced) = arguments.map (·.revised .unplaced)

/-- Each of the signs is read in the same way. -/
theorem suffix_member {a : Accessor} (ha : a ∈ memberSigns) (m : MemberName) {g : Inner}
    {cs rest : List Char} {holds : Option Expression → Prop} (hcs : Solid cs)
    (hpart : ∀ c ∈ (m.behind ++ cs).head?, isNamePart c = false)
    (harguments : Reads (optional (memberArguments g)) cs rest holds) :
    Reads (suffix g) (memberText a m cs) rest fun x =>
      ∃ arguments, x.1 = .member m.name.text a arguments ∧ holds arguments := by
  have hother {s : String} (hs : s ∈ suffixSigns) (hne : s ≠ a.symbol) :=
    symbol_memberText ha m cs hs hne
  have hname : Reads memberName (m.name.chars ++ (m.behind ++ cs)) cs (·.1 = m.name.text) :=
    (identifier_name m.name m.blank_behind hcs hpart).spanned.bind fun _ hx => Reads.pure hx
  have hclass : Fails (do symbol "."; keyword "class") (memberText a m cs) := by
    by_cases hplain : a = .plain
    · -- a point is read, but the name behind it is no keyword
      subst hplain
      exact Fails.bind_after (reads_sign ha m cs) fun _ _ =>
        keyword_name m.name (by decide) hpart
    · have hne : "." ≠ a.symbol := by
        cases a
        case plain => exact absurd rfl hplain
        all_goals decide
      exact (hother (by decide) hne).bind
  have hneither : ".&" ≠ a.symbol ∧ ".@" ≠ a.symbol := by
    have hsigns : ∀ a ∈ memberSigns, ".&" ≠ a.symbol ∧ ".@" ≠ a.symbol := by decide
    exact hsigns a ha
  refine Reads.firstOf_skip (hother (by decide) hneither.1).bind ?_
  refine Reads.firstOf_skip (hother (by decide) hneither.2).bind ?_
  refine Reads.firstOf_skip hclass.spanned.bind ?_
  refine Reads.firstOf_head ((reads_accessor ha m cs).bind ?_)
  rintro _ rfl
  refine hname.bind ?_
  rintro ⟨_, stop⟩ rfl
  exact harguments.bind fun arguments hholds => Reads.pure ⟨arguments, rfl, hholds⟩

/-- A member of the same object, with the same arguments, is the same expression. -/
theorem same_member {object object' : Expression} {arguments arguments' : Option Expression}
    (name : String) (a : Accessor) (stop stop' : Nat) (hobject : object'.Same object)
    (harguments : arguments'.map (·.revised .unplaced) = arguments.map (·.revised .unplaced)) :
    ((Suffix.member name a arguments').apply object' stop').Same
      ((Suffix.member name a arguments).apply object stop) := by
  have hobject : object'.revised .unplaced = object.revised .unplaced := hobject
  cases arguments with
  | none =>
    obtain rfl := Option.map_eq_none_iff.mp harguments
    show Expression.mk (.access (object'.revised .unplaced) name a) .unwritten none = _
    rw [hobject]
    rfl
  | some args =>
    obtain ⟨args', rfl, hargs⟩ := Option.map_eq_some_iff.mp harguments
    show Expression.mk (.call (object'.revised .unplaced) name (args'.revised .unplaced)
      (a = .safe) false) .unwritten none = _
    rw [hobject, hargs]
    rfl

/-! ### Objects -/

/-- The text is read as the object, with whatever suffixes stand behind it, if the first of them
is a member. -/
structure ObjectText (cs : List Char) (object : Expression) : Prop where
  solid : ∀ rest, Solid (cs ++ rest)
  noCast : ∀ n, ∀ a ∈ memberSigns, ∀ m rest,
    Fails (cast (level n)) (cs ++ memberText a m rest)
  reads : ∀ n, cs.length ≤ n → ∀ a ∈ memberSigns, ∀ m mid rest (after : Expression → Prop),
    (Repeats (suffix (level n)) (memberText a m mid) rest fun xs =>
      ∀ e, e.Same object → after (applyAll e xs)) →
    Reads (suffixed (level n)) (cs ++ memberText a m mid) rest after

theorem memberEnd_memberText {a : Accessor} (ha : a ∈ memberSigns) (m : MemberName)
    (cs : List Char) : MemberEnd (memberText a m cs) := by
  rcases memberSigns_cases ha with rfl | rfl | rfl <;> (rintro c ⟨⟩; decide)

section Member

variable {cs as : List Char} {object : Expression} {arguments : Option Expression}
  {a : Accessor} {m : MemberName}

/-- Arguments stand apart from the name before them. -/
theorem ArgumentsText.apart (h : ArgumentsText as arguments) (m : MemberName) {rest : List Char}
    (hrest : MemberEnd rest) :
    ∀ c ∈ (m.behind ++ (as ++ rest)).head?, isNamePart c = false := by
  rw [List.head?_append]
  cases hbehind : m.behind with
  | nil => exact h.part rest hrest
  | cons d ds =>
    rintro c ⟨⟩
    exact isNamePart_eq_false_of_isBlank (m.blank_behind d (hbehind ▸ List.mem_cons_self ..))

/-- A member with its arguments is a suffix. -/
theorem ArgumentsText.suffix (h : ArgumentsText as arguments) (ha : a ∈ memberSigns)
    (m : MemberName) {n : Nat} (hn : as.length ≤ n) {rest : List Char} (hrest : MemberEnd rest) :
    Reads (Grammar.suffix (level n)) (memberText a m (as ++ rest)) rest fun x =>
      ∃ arguments', x.1 = .member m.name.text a arguments' ∧
        arguments'.map (·.revised .unplaced) = arguments.map (·.revised .unplaced) :=
  suffix_member ha m (h.solid rest hrest) (h.apart m hrest) (h.reads n hn rest hrest)

theorem length_memberText (a : Accessor) (m : MemberName) (as : List Char) :
    as.length < (memberText a m as).length := by
  simp only [memberText, Name.chars, List.length_append, List.length_cons]
  omega

/-- A member with its arguments, and further suffixes behind it. -/
theorem ArgumentsText.repeats (h : ArgumentsText as arguments) (ha : a ∈ memberSigns)
    (m : MemberName) {n : Nat} (hn : as.length ≤ n) {mid rest : List Char} (hmid : MemberEnd mid)
    {before after : List (Suffix × Nat) → Prop}
    (hmore : Repeats (Grammar.suffix (level n)) mid rest before)
    (himp : ∀ arguments' stop xs,
      arguments'.map (·.revised .unplaced) = arguments.map (·.revised .unplaced) →
      before xs → after ((.member m.name.text a arguments', stop) :: xs)) :
    Repeats (Grammar.suffix (level n)) (memberText a m (as ++ mid)) rest after := by
  refine Repeats.round (h.suffix ha m hn hmid) ?_ hmore ?_
  · have hlt := length_memberText a m (as ++ mid)
    rw [List.length_append] at hlt
    omega
  · rintro ⟨_, stop⟩ xs ⟨arguments', rfl, harguments⟩ hxs
    exact himp arguments' stop xs harguments hxs

/-- An object with a member is an object. -/
theorem ObjectText.member (h : ObjectText cs object) (ha : a ∈ memberSigns) (m : MemberName)
    (hargs : ArgumentsText as arguments) (stop : Nat) :
    ObjectText (cs ++ memberText a m as)
      ((Suffix.member m.name.text a arguments).apply object stop) where
  solid rest := by
    rw [List.append_assoc]
    exact h.solid _
  noCast n a' ha' m' rest := by
    rw [List.append_assoc, memberText_append]
    exact h.noCast n a ha m _
  reads n hn a' ha' m' mid rest after hsuffixes := by
    have hlength : cs.length ≤ n ∧ as.length ≤ n := by
      have hlt := length_memberText a m as
      rw [List.length_append] at hn
      omega
    rw [List.append_assoc, memberText_append]
    refine h.reads n hlength.1 a ha m _ rest after ?_
    refine hargs.repeats ha m hlength.2 (memberEnd_memberText ha' m' mid) hsuffixes ?_
    intro arguments' stop' xs harguments hxs e he
    exact hxs _ (same_member m.name.text a stop stop' he harguments)

/-- The object with a member behind it, where an expression ends. -/
theorem ObjectText.expression (h : ObjectText cs object) (ha : a ∈ memberSigns) (m : MemberName)
    (hargs : ArgumentsText as arguments) {n : Nat} (hn : cs.length ≤ n) (hn' : as.length ≤ n)
    {rest : List Char} (hrest : Closed rest) :
    Reads (Grammar.expression (level n)) (cs ++ memberText a m (as ++ rest)) rest
      (IsMember object m.name.text a arguments) := by
  have hsuffixed : Reads (suffixed (level n)) (cs ++ memberText a m (as ++ rest)) rest
      (IsMember object m.name.text a arguments) := by
    refine h.reads n hn a ha m _ rest _ ?_
    refine hargs.repeats ha m hn' hrest.memberEnd (Repeats.stop (hrest.follows.suffix _) rfl) ?_
    rintro arguments' stop _ harguments rfl e he
    exact ⟨e, arguments', stop, rfl, he, harguments⟩
  exact expression_single (level n)
    (coerced_of_suffixed (h.noCast n a ha m _) hsuffixed hrest.follows.noCast) hrest

end Member

/-! ### Names, formulas and empty brackets -/

theorem apart_memberText {a : Accessor} (ha : a ∈ memberSigns) (m : MemberName)
    (cs : List Char) : Apart (memberText a m cs) where
  part := by
    rcases memberSigns_cases ha with rfl | rfl | rfl <;> (rintro c ⟨⟩; decide)
  fraction := by
    intro d rest heq
    have hplain : a = .plain := by
      cases a
      case plain => rfl
      case safe | spread => cases heq
      exact absurd ha (by decide)
    subst hplain
    have hd : (m.before ++ (m.name.chars ++ (m.behind ++ cs))).head? = some d :=
      congrArg List.head? (List.cons.inj heq).2
    -- a digit is neither a blank nor the start of a name
    have hhead := m.head _ d hd
    rw [← Bool.not_eq_true]
    intro hdigit
    have hblank : isBlank d = false := isBlank_eq_false_of_isNamePart (by
      simp [isNamePart, Char.isAlphanum, hdigit])
    rw [hblank, Bool.false_or] at hhead
    rw [isDigit_eq_false_of_isNameStart hhead] at hdigit
    cases hdigit

/-- A formula is an object. -/
theorem objectText_formula {e : Expression} (h : Formula e) : ObjectText e.text.toList e where
  solid := h.solid
  noCast n a ha m rest := h.cast_fails n (apart_memberText ha m rest)
  reads n hn a ha m mid rest after hsuffixes := by
    have hsame (e' : Expression) (he' : e'.unplaced = e.unplaced) : e'.Same e := by
      rw [Expression.Same, ← e'.revised_unplaced, he', e.revised_unplaced]
    refine h.readsSuffixed n hn [] (memberText a m mid) rest after (List.forall_mem_nil _)
      (solid_memberText ha m mid) (apart_memberText ha m mid) ?_
    exact hsuffixes.mono fun xs hxs e' he' => hxs e' (hsame e' he')

/-- There may be no arguments. -/
theorem argumentsText_none : ArgumentsText [] none where
  solid _ hrest := hrest.solid
  part _ hrest := hrest.part
  reads n _ rest hrest := by
    have hnone : Fails (memberArguments (level n)) rest :=
      Fails.orElse (hrest.symbol (by decide)).bind.bind.spanned.bind
        (hrest.symbol (by decide)).bind.spanned.bind.spanned.bind
    exact (Reads.optional_none hnone).mono fun x hx => congrArg _ hx

/-- No argument starts with a closing bracket. -/
theorem Closing.argument {cs : List Char} (h : Closing cs) (n : Nat) :
    Fails (Grammar.argument (level n)) cs := by
  have hidentifier : Fails identifier cs := Fails.identifier h.solid h.noName
  have hquoted : Fails (token quoted) cs :=
    Fails.token h.solid (Fails.bind (Fails.exactly
      (not_starts_of_head (f := (· == '\'')) (by decide) (forall_of_heads h (by decide)))))
  have hnumber : Fails (token number) cs :=
    Fails.token h.solid (number_fails h.unmarked.unopened.head)
  have hkey : Fails (entryKey (level n)) cs := by
    refine Fails.orElse (Fails.bind (Fails.spanned (Fails.firstOf hidentifier.map ?_)))
      (h.symbol (by decide)).bind
    simp only [List.forall_mem_cons, List.not_mem_nil, false_implies, implies_true, and_true]
    exact ⟨hquoted.map, hnumber⟩
  have hentry : Fails (mapEntry (level n)) cs :=
    Fails.orElse hkey.bind.spanned.bind (h.symbol (by decide)).bind.spanned.bind
  have hspread : Fails (spread (level n)) cs := (h.symbol (by decide)).bind.spanned.bind
  exact Fails.orElse (Fails.orElse hentry.map hspread.map) (h.inner n).map

/-- There may be arguments, but none in the brackets. -/
theorem argumentsText_brackets (span : Span) :
    ArgumentsText ['(', ')'] (some (.written (.sequence .arguments []) span)) where
  solid rest _ := Solid.cons (by decide) (by decide)
  part rest _ := by rintro c ⟨⟩; decide
  reads n _ rest hrest := by
    have hclosing : Closing (')' :: rest) := Closing.cons (by decide) rest
    have hopen : Reads (symbol "(") ('(' :: ')' :: rest) (')' :: rest) fun _ => True :=
      Reads.symbol_tight (s := "(") (Solid.cons (by decide) (by decide)) hclosing.solid
    have hclose : Reads (symbol ")") (')' :: rest) rest fun _ => True :=
      Reads.symbol_tight (s := ")") hclosing.solid hrest.solid
    have hitems : Reads (between "(" (separated (argument (level n)) (symbol ",") .allowed) ")")
        ('(' :: ')' :: rest) rest (· = []) :=
      hopen.bind fun _ _ => (Reads.separated_none (hclosing.argument n)).bind fun _ hx =>
        hclose.bind fun _ _ => Reads.pure hx
    have hclosure : Fails (closure (level n)) rest := (hrest.symbol (by decide)).bind.spanned.bind
    have hparts : Reads
        (do
          let items ← between "(" (separated (argument (level n)) (symbol ",") .allowed) ")"
          let trailing ← optional (closure (level n))
          pure (items, trailing))
        ('(' :: ')' :: rest) rest (· = ([], none)) := by
      refine hitems.bind fun items hi => ?_
      refine (Reads.optional_none hclosure).bind fun trailing ht => Reads.pure ?_
      rw [hi, ht]
    have hboth : Reads (arguments (level n)) ('(' :: ')' :: rest) rest fun e =>
        e.revised .unplaced = .written (.sequence .arguments []) .unwritten := by
      refine hparts.spanned.bind ?_
      rintro ⟨_, span⟩ rfl
      exact Reads.pure rfl
    exact hboth.orElse_left.optional fun e he => congrArg some he

/-! ### What is kept of a sign -/

/-- The sign that is kept: the one that is written, but of the signs of calls only `?.` is told
from the others. -/
def keptSign {α : Type} (a : Accessor) : Option α → Accessor
  | none => a
  | some _ => if a = .safe then .safe else .plain

theorem keptSign_map {α β : Type} (f : α → β) (a : Accessor) (arguments : Option α) :
    keptSign a (arguments.map f) = keptSign a arguments := by
  cases arguments <;> rfl

/-- The text shows the sign that is kept. -/
theorem text_member (object : Expression) (name : String) (a : Accessor)
    (arguments : Option Expression) (stop : Nat) :
    ((Suffix.member name a arguments).apply object stop).text =
      object.text ++ (keptSign a arguments).symbol ++ name ++
        (arguments.map Expression.text).getD "" := by
  cases arguments with
  | none =>
    show object.text ++ a.symbol ++ name = object.text ++ a.symbol ++ name ++ ""
    rw [String.append_empty]
  | some args =>
    show object.text ++ (if decide (a = .safe) then "?." else ".") ++ name ++ args.text = _
    by_cases hsafe : a = .safe <;> simp [keptSign, hsafe, Accessor.symbol]

/-- Members of one object are told apart by the signs that are kept. -/
theorem same_member_iff {object : Expression} {name : String} {a b : Accessor}
    {arguments : Option Expression} {e e' : Expression}
    (he : IsMember object name a arguments e) (he' : IsMember object name b arguments e') :
    e.Same e' ↔ keptSign a arguments = keptSign b arguments := by
  obtain ⟨o, args, stop, rfl, ho, hargs⟩ := he
  obtain ⟨o', args', stop', rfl, ho', hargs'⟩ := he'
  have hobjects : o.revised .unplaced = o'.revised .unplaced := ho.trans ho'.symm
  cases arguments with
  | none =>
    obtain rfl := Option.map_eq_none_iff.mp hargs
    obtain rfl := Option.map_eq_none_iff.mp hargs'
    show Expression.mk (.access (o.revised .unplaced) name a) .unwritten none =
      Expression.mk (.access (o'.revised .unplaced) name b) .unwritten none ↔ a = b
    simp [hobjects]
  | some x =>
    obtain ⟨y, rfl, hy⟩ := Option.map_eq_some_iff.mp hargs
    obtain ⟨z, rfl, hz⟩ := Option.map_eq_some_iff.mp hargs'
    show Expression.mk (.call (o.revised .unplaced) name (y.revised .unplaced)
        (a = .safe) false) .unwritten none =
      Expression.mk (.call (o'.revised .unplaced) name (z.revised .unplaced)
        (b = .safe) false) .unwritten none ↔ _
    rw [hobjects, hy, hz]
    by_cases ha : a = .safe <;> by_cases hb : b = .safe <;> simp [keptSign, ha, hb]

/-- The sources `return r.m`, `return r?.m` and `return r*.m` are read as the same object with the
same member, and so are the three sources with arguments.  What is kept of the sign without
arguments is the sign; with arguments it is whether the sign is `?.`.  The text shows the sign that
is kept, and the expressions are told apart, spans aside, exactly as far as it is. -/
theorem parse_member {cs as : List Char} {object : Expression} {arguments : Option Expression}
    (hobject : ObjectText cs object) (m : MemberName) (hargs : ArgumentsText as arguments)
    (gap : Gap) :
    ∃ e : Accessor → Expression,
      (∀ a ∈ memberSigns, ∃ span,
        Script.parse (String.ofList (afterReturn gap (cs ++ memberText a m as))) =
          .ok ⟨[⟨.ret (e a), span⟩], [], []⟩) ∧
      (∀ a ∈ memberSigns, ∃ (object' : Expression) (arguments' : Option Expression),
        object'.Same object ∧
        arguments'.map (·.revised .unplaced) = arguments.map (·.revised .unplaced) ∧
        (e a).text = object'.text ++ (keptSign a arguments).symbol ++ m.name.text ++
          (arguments'.map Expression.text).getD "") ∧
      ∀ a ∈ memberSigns, ∀ b ∈ memberSigns,
        ((e a).Same (e b) ↔ keptSign a arguments = keptSign b arguments) := by
  have hparse (a : Accessor) : ∃ e, a ∈ memberSigns → IsMember object m.name.text a arguments e ∧
      ∃ span, Script.parse (String.ofList (afterReturn gap (cs ++ memberText a m as))) =
        .ok ⟨[⟨.ret e, span⟩], [], []⟩ := by
    by_cases ha : a ∈ memberSigns
    · have hlength : cs.length + as.length ≤
          (afterReturn gap (cs ++ memberText a m as)).length + 1 := by
        have hlt := length_memberText a m as
        simp only [afterReturn, List.length_append]
        omega
      have hvalue := hobject.expression ha m hargs (Nat.le_of_add_right_le hlength)
        (Nat.le_of_add_left_le hlength) Closed.nil
      rw [List.append_nil] at hvalue
      obtain ⟨e, span, hparse, he⟩ := parse_afterReturn gap (hobject.solid _) hvalue
      exact ⟨e, fun _ => ⟨he, span, hparse⟩⟩
    · exact ⟨object, fun h => absurd h ha⟩
  -- one expression for each sign; what it is for other signs does not matter
  choose e he using hparse
  refine ⟨e, fun a ha => (he a ha).2, ?_, ?_⟩
  · intro a ha
    obtain ⟨o, args, stop, heq, ho, hsame⟩ := (he a ha).1
    refine ⟨o, args, ho, hsame, ?_⟩
    rw [heq, text_member, ← keptSign_map (·.revised .unplaced) a args, hsame, keptSign_map]
  · intro a ha b hb
    exact same_member_iff (he a ha).1 (he b hb).1

/-- The objects are those of `a[1]?.x`. -/
theorem parse_member_chain :
    ∃ e : Accessor → Expression,
      (∃ span, Script.parse "return a[1]?.x*.m()" = .ok ⟨[⟨.ret (e .spread), span⟩], [], []⟩) ∧
      (∃ span, Script.parse "return a[1]?.x.m()" = .ok ⟨[⟨.ret (e .plain), span⟩], [], []⟩) ∧
      (e .spread).Same (e .plain) ∧ ¬ (e .safe).Same (e .plain) := by
  have hblank : ∀ c ∈ ([] : List Char), isBlank c = true := List.forall_mem_nil _
  have hindex : Formula (.unwritten (.binary (.ofName "a") "["
      (.unwritten (.constant (.integer 1))))) :=
    .index _ (.name ⟨'a', [], by decide, by simp, by decide⟩ _) (.integer 1 (by decide) _)
  let x : MemberName := ⟨⟨'x', [], by decide, by simp, by decide⟩, [], [], hblank, hblank⟩
  let m : MemberName := ⟨⟨'m', [], by decide, by simp, by decide⟩, [], [], hblank, hblank⟩
  have hobject := (objectText_formula hindex).member (a := .safe) (by decide) x
    argumentsText_none 0
  obtain ⟨e, hparse, -, hsame⟩ :=
    parse_member hobject m (argumentsText_brackets .unwritten) oneBlank
  refine ⟨e, hparse .spread (by decide), hparse .plain (by decide), ?_, ?_⟩
  · exact (hsame .spread (by decide) .plain (by decide)).mpr rfl
  · rw [hsame .safe (by decide) .plain (by decide)]
    decide

/-- The call `a.m()`, its arguments at the given place. -/
def callAt (start stop : Nat) : Expression :=
  .written (.call (.written (.variableRef "a" none none) ⟨0, 1⟩) "m"
    (.written (.sequence .arguments []) ⟨start, stop⟩) false false) ⟨0, stop⟩

/-- The sign `*.` of a call is lost. -/
theorem parse_spreadCall :
    Script.parse "a*.m()" = .ok ⟨[⟨.expression (callAt 4 6), ⟨0, 6⟩⟩], [], []⟩ ∧
    Script.parse "a.m()" = .ok ⟨[⟨.expression (callAt 3 5), ⟨0, 5⟩⟩], [], []⟩ ∧
    (callAt 4 6).Same (callAt 3 5) ∧ (callAt 4 6).text = "a.m()" :=
  ⟨rfl, rfl, rfl, rfl⟩

end Grammar

end ScriptOutline
