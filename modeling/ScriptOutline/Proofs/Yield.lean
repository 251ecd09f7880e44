/-
ScriptOutline/Proofs/Yield.lean

What a parser answers when it succeeds, whatever text it is given and wherever it stands in it.
`Yields p holds` says that `p` answers only values of which `holds` is true.  There is one rule
for each combinator; the rule for `do` hands what is known of the first value on to the second
parser (`Yields.bind`), or nothing if the first value does not matter (`Yields.skip`).

The judgment is weaker than `Leads`, which also says where the parser ends, and so its rules
ask for less: a parser whose answer is not used needs no lemma at all.
-/
import Mathlib.Data.List.Basic
import ScriptOutline.Grammar.Type
import ScriptOutline.Proofs.Answer

namespace ScriptOutline.Grammar

open ScriptOutline.Grammar.Parser

variable {α β : Type}

/-- The parser answers only values of which `holds` is true. -/
def Yields (p : Parser α) (holds : α → Prop) : Prop :=
  ∀ c x c' alt, p c = .done x c' alt → holds x

namespace Yields

variable {p q : Parser α} {holds holds' : α → Prop} {after : β → Prop}

theorem any (p : Parser α) : Yields p fun _ => True := fun _ _ _ _ _ => trivial

theorem mono (hp : Yields p holds) (himp : ∀ x, holds x → holds' x) : Yields p holds' :=
  fun c x c' alt h => himp x (hp c x c' alt h)

theorem fail {fault : Cursor → Fault} : Yields (fun c => .fail (fault c)) holds :=
  fun _ _ _ _ h => nomatch h

/-! ### Sequences -/

theorem pure {x : α} (hx : holds x) : Yields (pure x) holds := by
  intro c y c' alt h
  obtain ⟨rfl, -⟩ := done_of_pure h
  exact hx

theorem bind {f : α → Parser β} (hp : Yields p holds)
    (hf : ∀ x, holds x → Yields (f x) after) : Yields (p >>= f) after := by
  intro c y c' alt h
  obtain ⟨x, c₁, alt₁, alt₂, hx, hy⟩ := done_of_bind h
  exact hf x (hp c x c₁ alt₁ hx) c₁ y c' alt₂ hy

/-- What the first parser answers does not matter. -/
theorem skip {f : α → Parser β} (hf : ∀ x, Yields (f x) after) : Yields (p >>= f) after :=
  (any p).bind fun x _ => hf x

theorem map {f : α → β} (hp : Yields p fun x => after (f x)) : Yields (f <$> p) after := by
  intro c y c' alt h
  obtain ⟨x, hx, rfl⟩ := done_of_map h
  exact hp c x c' alt hx

/-! ### Characters -/

theorem satisfy {f : Char → Bool} : Yields (Parser.satisfy f) fun c => f c = true :=
  fun _ _ _ _ h => (done_of_satisfy h).1

/-! ### Choices -/

theorem orElse (hp : Yields p holds) (hq : Yields q holds) :
    Yields (Parser.orElse p q) holds := by
  intro c x c' alt h
  rcases done_of_orElse h with h | h
  · exact hp c x c' alt h
  · exact hq c x c' alt h

theorem firstOf {others : List (Parser α)} (hp : Yields p holds)
    (hothers : List.Forall (Yields · holds) others) :
    Yields (Parser.firstOf p others) holds := by
  intro c x c' alt h
  have hall : ∀ r ∈ p :: others, Yields r holds :=
    List.forall_mem_cons.mpr ⟨hp, List.forall_iff_forall_mem.mp hothers⟩
  obtain ⟨r, hr, hdone⟩ := done_of_firstOf h
  exact hall r hr c x c' alt hdone

theorem optional (hp : Yields p holds) :
    Yields (Parser.optional p) fun x => ∀ y ∈ x, holds y := by
  intro c x c' alt h
  rcases done_of_optional h with ⟨y, rfl, hy⟩ | ⟨rfl, -⟩
  · rintro _ ⟨⟩
    exact hp c y c' alt hy
  · exact fun _ h => nomatch h

/-! ### Repetitions -/

/-- One more value of which the property is true. -/
theorem forall_mem_concat {xs : List α} {x : α} (hxs : ∀ y ∈ xs, holds y) (hx : holds x) :
    ∀ y ∈ xs ++ [x], holds y :=
  List.forall_mem_append.mpr ⟨hxs, List.forall_mem_singleton.mpr hx⟩

theorem many (hp : Yields p holds) : Yields (Parser.many p) fun xs => ∀ x ∈ xs, holds x := by
  intro c xs c' alt h
  refine many_inv (P := fun xs _ => ∀ x ∈ xs, holds x) ?_ (List.forall_mem_nil _) h
  exact fun xs c x c' alt hxs hx => forall_mem_concat hxs (hp c x c' alt hx)

theorem many1 (hp : Yields p holds) : Yields (Parser.many1 p) fun xs => ∀ x ∈ xs, holds x := by
  intro c xs c' alt h
  refine many1_inv (P := fun xs _ => ∀ x ∈ xs, holds x) ?_ ?_ h
  · exact fun xs c x c' alt hxs hx => forall_mem_concat hxs (hp c x c' alt hx)
  · exact fun x c' alt hx => List.forall_mem_singleton.mpr (hp c x c' alt hx)

theorem separated1 {separator : Parser Unit} {last : LastSeparator} (hp : Yields p holds) :
    Yields (Parser.separated1 p separator last) fun xs => ∀ x ∈ xs, holds x := by
  intro c xs c' alt h
  refine separated1_inv (P := fun xs _ => ∀ x ∈ xs, holds x) ?_ ?_ ?_ h
  · exact fun xs _ _ c₁ _ x c₂ alt₂ hxs _ hx => forall_mem_concat hxs (hp c₁ x c₂ alt₂ hx)
  · exact fun _ _ _ _ _ hxs _ => hxs
  · exact fun x c' alt hx => List.forall_mem_singleton.mpr (hp c x c' alt hx)

theorem separated {separator : Parser Unit} {last : LastSeparator} (hp : Yields p holds) :
    Yields (Parser.separated p separator last) fun xs => ∀ x ∈ xs, holds x := by
  intro c xs c' alt h
  rcases done_of_separated h with h | ⟨rfl, -⟩
  · exact separated1 hp c xs c' alt h
  · exact List.forall_mem_nil _

/-- A fold over what a repetition reads keeps an invariant. -/
theorem fold_many {f : β → α → β} {x : β} (hp : Yields p holds) (hx : after x)
    (hf : ∀ b a, after b → holds a → after (f b a)) :
    Yields (do let xs ← Parser.many p; Pure.pure (xs.foldl f x)) after := by
  refine hp.many.bind fun xs hxs => pure ?_
  induction xs generalizing x with
  | nil => exact hx
  | cons a xs ih =>
    obtain ⟨ha, hxs⟩ := List.forall_mem_cons.mp hxs
    exact ih (hf x a hx ha) hxs

/-! ### Spans and conditions -/

theorem spanned (hp : Yields p holds) : Yields (Parser.spanned p) fun x => holds x.1 :=
  fun c x c' alt h => hp c x.1 c' alt (done_of_spanned h).1

/-- What is done with a value and its span, whatever the span. -/
theorem spanned_bind {f : α × Span → Parser β}
    (hp : Yields p fun x => ∀ span, Yields (f (x, span)) after) :
    Yields (Parser.spanned p >>= f) after :=
  hp.spanned.bind fun x hx => hx x.2

/-- A value that is judged and found acceptable. -/
theorem accepted {judge : α → Except (Option Refusal) β} (hp : Yields p holds)
    (hjudge : ∀ x y, holds x → judge x = .ok y → after y) :
    Yields (Parser.accepted p judge) after := by
  intro c y c' alt h
  obtain ⟨x, hx, hjudged⟩ := done_of_accepted h
  exact hjudge x y (hp c x c' alt hx) hjudged

theorem between {opening closing : String} (hp : Yields p holds) :
    Yields (Grammar.between opening p closing) holds :=
  skip fun _ => hp.bind fun _ hx => skip fun _ => pure hx

theorem token (hp : Yields p holds) : Yields (Grammar.token p) holds :=
  skip fun _ => hp.bind fun _ hx => skip fun _ => pure hx

end Yields

end ScriptOutline.Grammar
