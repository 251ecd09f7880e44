/-
ScriptOutline/Proofs/Answer.lean

What it takes for a parser to succeed.  For each combinator one lemma says which of its parts have
succeeded, from where they started, and what the value is made of.  The judgments about parsers
that succeed, `Leads` and `Yields`, get their rules from these lemmas and do not look into the
combinators themselves.

A repetition can succeed after any number of rounds.  What is known of it is an invariant of the
values read so far and of the cursor behind them (`many_inv`, `separated1_inv`): it holds at the
start, and each round keeps it.
-/
import Mathlib.Data.List.Basic
import ScriptOutline.Grammar.Parser

namespace ScriptOutline.Grammar.Parser

variable {α β : Type} {p q : Parser α} {c c' : Cursor} {alt : Option Fault}

/-! ### Sequences -/

theorem done_of_pure {x y : α} (h : (Pure.pure x : Parser α) c = .done y c' alt) :
    y = x ∧ c' = c := by
  obtain ⟨rfl, rfl, -⟩ := Reply.done.inj h
  exact ⟨rfl, rfl⟩

theorem done_of_bind {f : α → Parser β} {y : β} (h : (p >>= f) c = .done y c' alt) :
    ∃ x c₁ alt₁ alt₂, p c = .done x c₁ alt₁ ∧ f x c₁ = .done y c' alt₂ := by
  change Parser.bind p f c = _ at h
  rw [Parser.bind] at h
  cases hx : p c with
  | fail fault => simp [hx] at h
  | done x c₁ alt₁ =>
    simp only [hx] at h
    cases hy : f x c₁ with
    | fail fault => simp [hy, Reply.after] at h
    | done y' c₂ alt₂ =>
      obtain ⟨rfl, rfl, -⟩ : y' = y ∧ c₂ = c' ∧ _ := by simpa [hy, Reply.after] using h
      exact ⟨x, c₁, alt₁, alt₂, rfl, hy⟩

theorem done_of_map {f : α → β} {y : β} (h : (f <$> p) c = .done y c' alt) :
    ∃ x, p c = .done x c' alt ∧ y = f x := by
  simp only [Functor.map] at h
  cases hx : p c with
  | fail fault => simp [hx] at h
  | done x c₁ alt₁ =>
    obtain ⟨rfl, rfl, rfl⟩ := Reply.done.inj (by simpa only [hx] using h)
    exact ⟨x, rfl, rfl⟩

/-! ### Characters -/

theorem done_of_satisfy {f : Char → Bool} {x : Char} (h : satisfy f c = .done x c' alt) :
    f x = true ∧ ∃ rest, c.rest = x :: rest ∧ c' = ⟨c.pos + 1, rest⟩ := by
  rw [satisfy] at h
  split at h
  · next y rest hrest =>
    split at h
    · next hy =>
      obtain ⟨rfl, rfl, -⟩ := Reply.done.inj h
      exact ⟨hy, rest, hrest, rfl⟩
    · cases h
  · cases h

/-! ### Choices -/

theorem done_of_orElse {x : α} (h : orElse p q c = .done x c' alt) :
    p c = .done x c' alt ∨ q c = .done x c' alt := by
  rw [orElse] at h
  cases hp : p c with
  | done y c₁ alt₁ => exact .inl (by simpa only [hp] using h)
  | fail fault =>
    cases hq : q c with
    | done y c₁ alt₁ => exact .inr (by simpa only [hp, hq] using h)
    | fail fault' => simp [hp, hq] at h

theorem done_of_firstOfAfter {others : List (Parser α)} {fault : Fault} {x : α}
    (h : firstOfAfter fault others c = .done x c' alt) : ∃ r ∈ others, r c = .done x c' alt := by
  induction others generalizing fault with
  | nil => cases h
  | cons r others ih =>
    rw [firstOfAfter] at h
    cases hr : r c with
    | done y c₁ alt₁ => exact ⟨r, .head _, by simpa only [hr] using h⟩
    | fail fault' =>
      obtain ⟨s, hs, hdone⟩ := ih (by simpa only [hr] using h)
      exact ⟨s, .tail _ hs, hdone⟩

theorem done_of_firstOf {others : List (Parser α)} {x : α}
    (h : firstOf p others c = .done x c' alt) : ∃ r ∈ p :: others, r c = .done x c' alt := by
  rw [firstOf] at h
  cases hp : p c with
  | done y c₁ alt₁ => exact ⟨p, .head _, by simpa only [hp] using h⟩
  | fail fault =>
    obtain ⟨r, hr, hdone⟩ := done_of_firstOfAfter (by simpa only [hp] using h)
    exact ⟨r, .tail _ hr, hdone⟩

theorem done_of_optional {x : Option α} (h : optional p c = .done x c' alt) :
    (∃ y, x = some y ∧ p c = .done y c' alt) ∨ x = none ∧ c' = c := by
  rw [optional] at h
  cases hp : p c with
  | done y c₁ alt₁ =>
    obtain ⟨rfl, rfl, rfl⟩ := Reply.done.inj (by simpa only [hp] using h)
    exact .inl ⟨y, rfl, rfl⟩
  | fail fault =>
    obtain ⟨rfl, rfl, -⟩ := Reply.done.inj (by simpa only [hp] using h)
    exact .inr ⟨rfl, rfl⟩

/-! ### Repetitions -/

section Repetition

variable {P : List α → Cursor → Prop}

section Rounds

variable (hstep : ∀ xs c x c' alt, P xs c → p c = .done x c' alt → P (xs ++ [x]) c')
include hstep

theorem manyFrom_inv {xs : List α} {c : Cursor} {alt alt' : Option Fault} (fuel : List Char)
    (read : List α) (hread : P read.reverse c)
    (h : manyFrom p fuel read c alt = .done xs c' alt') : P xs c' := by
  induction fuel generalizing read c alt with
  | nil =>
    rw [manyFrom] at h
    cases hx : p c with
    | fail fault =>
      obtain ⟨rfl, rfl, -⟩ := Reply.done.inj (by simpa only [hx] using h)
      exact hread
    | done x c₁ alt₁ =>
      obtain ⟨rfl, rfl, -⟩ := Reply.done.inj (by simpa only [hx] using h)
      exact List.reverse_cons ▸ hstep _ _ _ _ _ hread hx
  | cons _ fuel ih =>
    rw [manyFrom] at h
    cases hx : p c with
    | fail fault =>
      obtain ⟨rfl, rfl, -⟩ := Reply.done.inj (by simpa only [hx] using h)
      exact hread
    | done x c₁ alt₁ =>
      exact ih _ (List.reverse_cons ▸ hstep _ _ _ _ _ hread hx) (by simpa only [hx] using h)

theorem many_inv {xs : List α} (hnil : P [] c) (h : many p c = .done xs c' alt) : P xs c' :=
  manyFrom_inv hstep c.rest [] hnil h

theorem many1_inv {xs : List α} (hfirst : ∀ x c' alt, p c = .done x c' alt → P [x] c')
    (h : many1 p c = .done xs c' alt) : P xs c' := by
  rw [many1] at h
  cases hx : p c with
  | fail fault => simp [hx] at h
  | done x c₁ alt₁ =>
    exact manyFrom_inv hstep c₁.rest [x] (hfirst x c₁ alt₁ hx) (by simpa only [hx] using h)

end Rounds

section Items

variable {separator : Parser Unit} {last : LastSeparator}
  (hstep : ∀ xs c u c₁ alt₁ x c₂ alt₂, P xs c → separator c = .done u c₁ alt₁ →
    p c₁ = .done x c₂ alt₂ → P (xs ++ [x]) c₂)
include hstep

/-- A separator without an item behind it is left where it is. -/
theorem itemsFrom_inv (fuel : List Char) (read : List α) (c : Cursor) (alt : Option Fault)
    (hread : P read.reverse c) :
    P (itemsFrom p separator fuel read c alt).1 (itemsFrom p separator fuel read c alt).2.1 := by
  rw [itemsFrom.eq_def]
  cases hs : separator c with
  | fail fault => simpa only [hs] using hread
  | done u c₁ alt₁ =>
    cases hx : p c₁ with
    | fail fault => simpa only [hs, hx] using hread
    | done x c₂ alt₂ =>
      have hread₂ : P (x :: read).reverse c₂ :=
        List.reverse_cons ▸ hstep _ _ _ _ _ _ _ _ hread hs hx
      cases fuel with
      | nil => simpa only [hs, hx] using hread₂
      | cons _ fuel => simpa only [hs, hx] using itemsFrom_inv fuel (x :: read) c₂ _ hread₂

variable (hlast : ∀ xs c u c' alt, P xs c → separator c = .done u c' alt → P xs c')
include hlast

theorem separated1_inv {xs : List α} (hfirst : ∀ x c' alt, p c = .done x c' alt → P [x] c')
    (h : separated1 p separator last c = .done xs c' alt) : P xs c' := by
  rw [separated1] at h
  cases hx : p c with
  | fail fault => simp [hx] at h
  | done x c₁ alt₁ =>
    have hitems := itemsFrom_inv hstep c₁.rest [x] c₁ alt₁ (hfirst x c₁ alt₁ hx)
    simp only [hx] at h
    -- one more separator may follow the last item
    cases last with
    | refused =>
      obtain ⟨rfl, rfl, -⟩ := Reply.done.inj h
      exact hitems
    | allowed =>
      cases hs : separator (itemsFrom p separator c₁.rest [x] c₁ alt₁).2.1 with
      | fail fault =>
        obtain ⟨rfl, rfl, -⟩ := Reply.done.inj (by simpa only [hs] using h)
        exact hitems
      | done u c₃ alt₃ =>
        obtain ⟨rfl, rfl, -⟩ := Reply.done.inj (by simpa only [hs] using h)
        exact hlast _ _ _ _ _ hitems hs

end Items

end Repetition

theorem done_of_separated {separator : Parser Unit} {last : LastSeparator} {xs : List α}
    (h : separated p separator last c = .done xs c' alt) :
    separated1 p separator last c = .done xs c' alt ∨ xs = [] ∧ c' = c := by
  rw [separated] at h
  cases hx : separated1 p separator last c with
  | done items c₁ alt₁ => exact .inl (by simpa only [hx] using h)
  | fail fault =>
    obtain ⟨rfl, rfl, -⟩ := Reply.done.inj (by simpa only [hx] using h)
    exact .inr ⟨rfl, rfl⟩

/-! ### Spans and conditions -/

theorem done_of_spanned {x : α × Span} (h : spanned p c = .done x c' alt) :
    p c = .done x.1 c' alt ∧ x.2 = c.spanTo c' := by
  rw [spanned] at h
  cases hx : p c with
  | fail fault => simp [hx] at h
  | done y c₁ alt₁ =>
    obtain ⟨rfl, rfl, rfl⟩ := Reply.done.inj (by simpa only [hx] using h)
    exact ⟨rfl, rfl⟩

theorem done_of_accepted {judge : α → Except (Option Refusal) β} {y : β}
    (h : accepted p judge c = .done y c' alt) :
    ∃ x, p c = .done x c' alt ∧ judge x = .ok y := by
  rw [accepted] at h
  cases hx : p c with
  | fail fault => simp [hx] at h
  | done x c₁ alt₁ =>
    cases hjudge : judge x with
    | error refusal => simp [hx, hjudge] at h
    | ok result =>
      obtain ⟨rfl, rfl, rfl⟩ := Reply.done.inj (by simpa only [hx, hjudge] using h)
      exact ⟨x, rfl, hjudge⟩

end ScriptOutline.Grammar.Parser
