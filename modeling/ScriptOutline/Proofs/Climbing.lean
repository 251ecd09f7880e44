/-
ScriptOutline/Proofs/Climbing.lean

Chains of names and binary operators, and the tree that precedence climbing makes of them.

The operators come in groups, the tightest one first.  `climb bound left links` extends `left`
by the operators of the groups before `bound`, as long as they come: the right operand of an
operator takes the operators of tighter groups only, so a group groups to the left; but the
right operand of an assignment takes everything.  Nothing here mentions a parser.

What the proof about the parser needs is that climbing up to one bound can be done in two
steps, over a smaller bound first (`climb_climb`).
-/
import ScriptOutline.Grammar.Lexical

namespace ScriptOutline.Grammar

/-! ### Operators -/

/-- The binary operators in groups, the tightest group first and the assignments last. -/
def operatorGroups : List (List String) :=
  [["**"], ["*", "/", "%"], ["+", "-"], ["<<", ">>"], ["<", "<=", ">", ">=", "in"],
    ["==", "!=", "<=>", "=~", "==~"], ["&"], ["^"], ["|"], ["&&"], ["||"],
    ["=", "+=", "-=", "*=", "/=", "%=", "**="]]

/-- The position of the assignments. -/
def assignmentTier : Nat := 11

/-- An operator of one of the groups. -/
structure Operator where
  tier : Nat
  text : String
  grouped : text ∈ operatorGroups.getD tier []

namespace Operator

theorem tier_le (o : Operator) : o.tier ≤ assignmentTier := by
  by_cases h : o.tier < operatorGroups.length
  · exact Nat.le_of_lt_succ h
  · have hnone : operatorGroups.getD o.tier [] = [] := by
      rw [List.getD_eq_getElem?_getD, List.getElem?_eq_none (Nat.le_of_not_lt h)]
      rfl
    have hmem := o.grouped
    rw [hnone] at hmem
    exact absurd hmem List.not_mem_nil

/-- The right operand of the operator takes the operators of the groups before this one. -/
def operandBound (o : Operator) : Nat :=
  if o.tier = assignmentTier then assignmentTier + 1 else o.tier

end Operator

/-! ### Chains -/

/-- Blanks, at least one. -/
structure Gap where
  first : Char
  others : List Char
  blank : ∀ c ∈ first :: others, isBlank c = true

def Gap.chars (g : Gap) : List Char := g.first :: g.others

/-- A name that is no keyword. -/
structure Name where
  first : Char
  others : List Char
  start : isNameStart first = true
  parts : ∀ c ∈ others, isNamePart c = true
  free : String.ofList (first :: others) ∉ keywords

def Name.chars (x : Name) : List Char := x.first :: x.others

def Name.text (x : Name) : String := String.ofList x.chars

/-- An operator and its right operand, with the blanks before and between them. -/
structure Link where
  before : Gap
  operator : Operator
  after : Gap
  operand : Name

/-- A name, followed by links, as it is written. -/
def chainText : Name → List Link → List Char
  | x, [] => x.chars
  | x, l :: rest =>
    x.chars ++ (l.before.chars ++
      (l.operator.text.toList ++ (l.after.chars ++ chainText l.operand rest)))

/-- The blanks before the first operator. -/
def leadingBlanks : List Link → List Char
  | [] => []
  | l :: _ => l.before.chars

/-- Links from the first operator on. -/
def linksText : List Link → List Char
  | [] => []
  | l :: rest => l.operator.text.toList ++ (l.after.chars ++ chainText l.operand rest)

theorem chainText_eq (x : Name) (links : List Link) :
    chainText x links = x.chars ++ (leadingBlanks links ++ linksText links) := by
  cases links with
  | nil => simp [chainText, leadingBlanks, linksText]
  | cons l rest => rfl

theorem isBlank_of_mem_leadingBlanks {links : List Link} :
    ∀ c ∈ leadingBlanks links, isBlank c = true := by
  cases links with
  | nil => exact List.forall_mem_nil _
  | cons l rest => exact l.before.blank

theorem length_linksText_lt (l : Link) (rest : List Link) :
    (linksText rest).length < (linksText (l :: rest)).length := by
  have hgap : 0 < l.after.chars.length := Nat.succ_pos _
  rw [linksText, chainText_eq]
  simp only [List.length_append]
  omega

theorem length_linksText_le {links links' : List Link} (h : links' <:+ links) :
    (linksText links').length ≤ (linksText links).length := by
  obtain ⟨before, rfl⟩ := h
  induction before with
  | nil => exact Nat.le_refl _
  | cons l before ih => exact Nat.le_trans ih (Nat.le_of_lt (length_linksText_lt l _))

theorem length_le_length_linksText (links : List Link) :
    links.length ≤ (linksText links).length := by
  induction links with
  | nil => exact Nat.le_refl _
  | cons l rest ih => exact Nat.lt_of_le_of_lt ih (length_linksText_lt l rest)

/-! ### Trees -/

/-- The grouping of a chain. -/
inductive Tree where
  | operand (name : String)
  | node (left : Tree) (operator : String) (right : Tree)
  deriving DecidableEq, Repr

/-- The expression is the tree, whatever its spans are. -/
def Tree.Spells : Tree → Expression → Prop
  | .operand name, e => ∃ span, e = .written (.variableRef name none none) span
  | .node left operator right, e =>
    ∃ l r span, e = .written (.binary l operator r) span ∧ left.Spells l ∧ right.Spells r

/-! ### Precedence climbing -/

/-- Climbing, with a proof that what is left over is the end of the chain. -/
def climbFrom (bound : Nat) (left : Tree) (links : List Link) :
    { r : Tree × List Link // r.2 <:+ links } :=
  match links with
  | [] => ⟨(left, []), List.suffix_rfl⟩
  | l :: rest =>
    if l.operator.tier < bound then
      let right := climbFrom l.operator.operandBound (.operand l.operand.text) rest
      have hright := right.property
      let whole := climbFrom bound (.node left l.operator.text right.val.1) right.val.2
      ⟨whole.val, (whole.property.trans hright).trans (List.suffix_cons l rest)⟩
    else ⟨(left, l :: rest), List.suffix_rfl⟩
termination_by links.length
decreasing_by
  · exact Nat.lt_succ_self _
  · exact Nat.lt_succ_of_le hright.length_le

/-- Extends `left` by the links as long as their operators are of the groups before `bound`.
The answer is the tree and the links that are left over. -/
def climb (bound : Nat) (left : Tree) (links : List Link) : Tree × List Link :=
  (climbFrom bound left links).val

/-- The tree of a chain: no operator is too loose. -/
def chainTree (x : Name) (links : List Link) : Tree :=
  (climb (assignmentTier + 1) (.operand x.text) links).1

theorem climb_suffix (bound : Nat) (left : Tree) (links : List Link) :
    (climb bound left links).2 <:+ links := (climbFrom bound left links).property

theorem climb_nil (bound : Nat) (left : Tree) : climb bound left [] = (left, []) := by
  rw [climb, climbFrom]

/-- An operator that is tight enough takes its right operand, and climbing goes on. -/
theorem climb_cons_of_lt {bound : Nat} (left : Tree) {l : Link} (rest : List Link)
    (h : l.operator.tier < bound) :
    climb bound left (l :: rest) =
      climb bound
        (.node left l.operator.text
          (climb l.operator.operandBound (.operand l.operand.text) rest).1)
        (climb l.operator.operandBound (.operand l.operand.text) rest).2 := by
  rw [climb, climbFrom, if_pos h]
  rfl

/-- An operator that is too loose ends the climbing. -/
theorem climb_cons_of_le {bound : Nat} (left : Tree) {l : Link} (rest : List Link)
    (h : bound ≤ l.operator.tier) : climb bound left (l :: rest) = (left, l :: rest) := by
  rw [climb, climbFrom, if_neg (Nat.not_lt.mpr h)]

/-- The links start with an operator that is too loose for the bound, or there are none. -/
def Stopped (bound : Nat) (links : List Link) : Prop :=
  ∀ l ∈ links.head?, bound ≤ l.operator.tier

theorem stopped_climb (bound : Nat) (left : Tree) (links : List Link) :
    Stopped bound (climb bound left links).2 := by
  match links with
  | [] => simp [climb_nil, Stopped]
  | l :: rest =>
    by_cases h : l.operator.tier < bound
    · have hsuffix := climb_suffix l.operator.operandBound (.operand l.operand.text) rest
      rw [climb_cons_of_lt left rest h]
      exact stopped_climb bound _ _
    · have hle := Nat.le_of_not_lt h
      rw [climb_cons_of_le left rest hle]
      simpa [Stopped] using hle
termination_by links.length
decreasing_by exact Nat.lt_succ_of_le hsuffix.length_le

/-- Climbing over the tighter groups first makes no difference. -/
theorem climb_climb {inner outer : Nat} (h : inner ≤ outer) (left : Tree)
    (links : List Link) :
    climb outer (climb inner left links).1 (climb inner left links).2 =
      climb outer left links := by
  match links with
  | [] => rw [climb_nil]
  | l :: rest =>
    by_cases hl : l.operator.tier < inner
    · -- both sides take the operator with the same right operand
      have hsuffix := climb_suffix l.operator.operandBound (.operand l.operand.text) rest
      rw [climb_cons_of_lt left rest hl, climb_cons_of_lt left rest (Nat.lt_of_lt_of_le hl h)]
      exact climb_climb h _ _
    · rw [climb_cons_of_le left rest (Nat.le_of_not_lt hl)]
termination_by links.length
decreasing_by exact Nat.lt_succ_of_le hsuffix.length_le

/-- No operator is looser than an assignment. -/
theorem climb_all (left : Tree) (links : List Link) :
    (climb (assignmentTier + 1) left links).2 = [] := by
  have hstop := stopped_climb (assignmentTier + 1) left links
  cases hrest : (climb (assignmentTier + 1) left links).2 with
  | nil => rfl
  | cons l rest =>
    rw [hrest] at hstop
    exact absurd l.operator.tier_le (Nat.not_le.mpr (hstop l rfl))

/-! ### Where a chain splits -/

theorem climb_stopped {bound : Nat} (left : Tree) {links : List Link} (h : Stopped bound links) :
    climb bound left links = (left, links) := by
  cases links with
  | nil => exact climb_nil bound left
  | cons l rest => exact climb_cons_of_le left rest (h l rfl)

/-- An operator that no right operand before it can take is met after all of them. -/
theorem climb_append (bound : Nat) (left : Tree) (before : List Link) (l : Link)
    (rest : List Link) (h : ∀ m ∈ before, m.operator.operandBound ≤ l.operator.tier) :
    climb bound left (before ++ l :: rest) =
      climb bound (climb bound left before).1 ((climb bound left before).2 ++ l :: rest) := by
  match before with
  | [] => rw [climb_nil]
  | m :: before =>
    by_cases hm : m.operator.tier < bound
    · obtain ⟨right, hright⟩ : ∃ right,
          right = climb m.operator.operandBound (.operand m.operand.text) before := ⟨_, rfl⟩
      have hsuffix : right.2 <:+ before := hright ▸ climb_suffix _ _ _
      -- the right operand of `m` ends inside `before`, or else at `l`
      have hstopped : Stopped m.operator.operandBound (right.2 ++ l :: rest) := by
        have hstop : Stopped m.operator.operandBound right.2 := hright ▸ stopped_climb _ _ _
        cases hr : right.2 with
        | nil =>
          rintro d hd
          cases hd
          exact h m (List.mem_cons_self ..)
        | cons d ds =>
          rw [hr] at hstop
          exact hstop
      have hinner := climb_append m.operator.operandBound (.operand m.operand.text) before l rest
        fun d hd => h d (List.mem_cons_of_mem _ hd)
      rw [← hright, climb_stopped _ hstopped] at hinner
      rw [List.cons_append, climb_cons_of_lt left _ hm, climb_cons_of_lt left _ hm, hinner,
        ← hright]
      exact climb_append bound _ right.2 l rest fun d hd =>
        h d (List.mem_cons_of_mem _ (hsuffix.subset hd))
    · rw [climb_cons_of_le left before (Nat.le_of_not_lt hm)]
termination_by before.length
decreasing_by
  · exact Nat.lt_succ_self _
  · exact Nat.lt_succ_of_le hsuffix.length_le

/-- Climbing takes everything if no operator is too loose. -/
theorem climb_of_all_lt {bound : Nat} (x : Name) {links : List Link}
    (h : ∀ m ∈ links, m.operator.tier < bound) (hbound : bound ≤ assignmentTier + 1) :
    climb bound (.operand x.text) links = (chainTree x links, []) := by
  have hnil : (climb bound (.operand x.text) links).2 = [] := by
    have hstop := stopped_climb bound (.operand x.text) links
    cases hrest : (climb bound (.operand x.text) links).2 with
    | nil => rfl
    | cons l rest =>
      rw [hrest] at hstop
      have hmem : l ∈ links :=
        (climb_suffix bound (.operand x.text) links).subset (hrest ▸ List.mem_cons_self ..)
      exact absurd (h l hmem) (Nat.not_lt.mpr (hstop l rfl))
  have htree := climb_climb hbound (.operand x.text) links
  rw [hnil, climb_nil] at htree
  have htaken : (climb bound (.operand x.text) links).1 = chainTree x links := by
    rw [chainTree, ← htree]
  exact Prod.ext htaken hnil

/-- A chain splits at the last operator of its loosest group, if that is not the group of the
assignments; otherwise it splits at its first assignment. -/
theorem chainTree_split (x : Name) (before : List Link) (l : Link) (rest : List Link)
    (hbefore : ∀ m ∈ before, m.operator.operandBound ≤ l.operator.tier)
    (hrest : ∀ m ∈ rest, m.operator.tier < l.operator.operandBound) :
    chainTree x (before ++ l :: rest) =
      .node (chainTree x before) l.operator.text (chainTree l.operand rest) := by
  have hbound : l.operator.operandBound ≤ assignmentTier + 1 := by
    have := l.operator.tier_le
    rw [Operator.operandBound]
    split <;> omega
  rw [chainTree, climb_append _ _ _ _ _ hbefore, climb_all, List.nil_append,
    climb_cons_of_lt _ rest (Nat.lt_succ_of_le l.operator.tier_le),
    climb_of_all_lt l.operand hrest hbound, climb_nil]
  rfl

end ScriptOutline.Grammar
