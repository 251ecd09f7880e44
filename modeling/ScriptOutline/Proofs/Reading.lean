/-
ScriptOutline/Proofs/Reading.lean

What a parser does on a given text, wherever the text stands.  `Reads p cs rest holds` says
that `p` succeeds before the text `cs`, goes on up to the text `rest`, and answers a value of
which `holds` is true; `Fails p cs` says that it fails.  Spans and remembered faults are left
open.  There is one lemma for every combinator and each of its outcomes, so that a proof about
a rule of the grammar follows the rule.

A repetition succeeds by rounds.  Its fuel is the text that is left, so each round has to read
something (`Repeats.round`).
-/
import ScriptOutline.Grammar.Lexical
import ScriptOutline.Text.AsciiCase

namespace ScriptOutline.Grammar

open ScriptOutline.Grammar.Parser

variable {α β : Type}

/-! ### Success and failure -/

/-- The parser reads a value from `cs` up to `rest`. -/
def Reads (p : Parser α) (cs rest : List Char) (holds : α → Prop) : Prop :=
  ∀ pos, ∃ value pos' alt, p ⟨pos, cs⟩ = .done value ⟨pos', rest⟩ alt ∧ holds value

/-- The parser cannot read anything from `cs`. -/
def Fails (p : Parser α) (cs : List Char) : Prop := ∀ pos, ∃ fault, p ⟨pos, cs⟩ = .fail fault

namespace Reads

variable {p : Parser α} {cs mid rest : List Char} {holds : α → Prop} {after : β → Prop}

theorem mono {holds' : α → Prop} (h : Reads p cs rest holds) (himp : ∀ x, holds x → holds' x) :
    Reads p cs rest holds' := by
  intro pos
  obtain ⟨x, pos', alt, hp, hx⟩ := h pos
  exact ⟨x, pos', alt, hp, himp x hx⟩

theorem pure {x : α} (hx : holds x) : Reads (pure x) cs cs holds := fun pos =>
  ⟨x, pos, none, rfl, hx⟩

theorem bind {f : α → Parser β} (hp : Reads p cs mid holds)
    (hf : ∀ x, holds x → Reads (f x) mid rest after) : Reads (p >>= f) cs rest after := by
  intro pos
  obtain ⟨x, pos₁, alt₁, hp, hx⟩ := hp pos
  obtain ⟨y, pos₂, alt₂, hf, hy⟩ := hf x hx pos₁
  refine ⟨y, pos₂, Fault.merge alt₁ alt₂, ?_, hy⟩
  show Parser.bind p f ⟨pos, cs⟩ = _
  rw [Parser.bind, hp]
  show ((f x) ⟨pos₁, mid⟩).after alt₁ = _
  rw [hf]
  rfl

theorem map {f : α → β} (hp : Reads p cs rest holds) (hf : ∀ x, holds x → after (f x)) :
    Reads (f <$> p) cs rest after := by
  intro pos
  obtain ⟨x, pos', alt, hp, hx⟩ := hp pos
  refine ⟨f x, pos', alt, ?_, hf x hx⟩
  simp only [Functor.map]
  rw [hp]

end Reads

namespace Fails

variable {p : Parser α} {cs mid : List Char} {holds : α → Prop}

theorem bind {f : α → Parser β} (hp : Fails p cs) : Fails (p >>= f) cs := by
  intro pos
  obtain ⟨fault, hp⟩ := hp pos
  refine ⟨fault, ?_⟩
  show Parser.bind p f ⟨pos, cs⟩ = _
  rw [Parser.bind, hp]

/-- The first parser reads something, but the second cannot go on. -/
theorem bind_after {f : α → Parser β} (hp : Reads p cs mid holds)
    (hf : ∀ x, holds x → Fails (f x) mid) : Fails (p >>= f) cs := by
  intro pos
  obtain ⟨x, pos₁, alt₁, hp, hx⟩ := hp pos
  obtain ⟨fault, hf⟩ := hf x hx pos₁
  have hbind : (p >>= f) ⟨pos, cs⟩ = (Reply.fail fault).after alt₁ := by
    show Parser.bind p f ⟨pos, cs⟩ = _
    rw [Parser.bind, hp]
    show ((f x) ⟨pos₁, mid⟩).after alt₁ = _
    rw [hf]
  exact ⟨_, hbind⟩

theorem map {f : α → β} (hp : Fails p cs) : Fails (f <$> p) cs := by
  intro pos
  obtain ⟨fault, hp⟩ := hp pos
  refine ⟨fault, ?_⟩
  simp only [Functor.map]
  rw [hp]

end Fails

/-! ### Choices -/

variable {p q : Parser α} {cs mid rest : List Char} {holds : α → Prop}

theorem Reads.orElse_left (hp : Reads p cs rest holds) : Reads (orElse p q) cs rest holds := by
  intro pos
  obtain ⟨x, pos', alt, hp, hx⟩ := hp pos
  exact ⟨x, pos', alt, by rw [orElse, hp], hx⟩

theorem Reads.orElse_right (hp : Fails p cs) (hq : Reads q cs rest holds) :
    Reads (orElse p q) cs rest holds := by
  intro pos
  obtain ⟨fault, hp⟩ := hp pos
  obtain ⟨x, pos', alt, hq, hx⟩ := hq pos
  exact ⟨x, pos', alt, by rw [orElse, hp]; simp only [hq], hx⟩

theorem Fails.orElse (hp : Fails p cs) (hq : Fails q cs) : Fails (Parser.orElse p q) cs := by
  intro pos
  obtain ⟨fault, hp⟩ := hp pos
  obtain ⟨fault', hq⟩ := hq pos
  exact ⟨Fault.max fault fault', by rw [Parser.orElse, hp]; simp only [hq]⟩

/-- Alternatives that fail are passed over. -/
theorem Reads.firstOfAfter {before : List (Parser α)} (hbefore : ∀ r ∈ before, Fails r cs)
    (hq : Reads q cs rest holds) (after : List (Parser α)) (a : Fault) :
    Reads (Parser.firstOfAfter a (before ++ q :: after)) cs rest holds := by
  induction before generalizing a with
  | nil =>
    intro pos
    obtain ⟨x, pos', alt, hq, hx⟩ := hq pos
    exact ⟨x, pos', alt, by rw [List.nil_append, Parser.firstOfAfter, hq], hx⟩
  | cons r before ih =>
    intro pos
    obtain ⟨fault, hr⟩ := hbefore r (List.mem_cons_self ..) pos
    obtain ⟨x, pos', alt, hall, hx⟩ :=
      ih (fun r' h => hbefore r' (List.mem_cons_of_mem _ h)) (Fault.max fault a) pos
    refine ⟨x, pos', alt, ?_, hx⟩
    rw [List.cons_append, Parser.firstOfAfter, hr]
    exact hall

theorem Reads.firstOf_head {others : List (Parser α)} (hp : Reads p cs rest holds) :
    Reads (firstOf p others) cs rest holds := by
  intro pos
  obtain ⟨x, pos', alt, hp, hx⟩ := hp pos
  exact ⟨x, pos', alt, by rw [firstOf, hp], hx⟩

theorem Reads.firstOf_tail {before : List (Parser α)} (hp : Fails p cs)
    (hbefore : ∀ r ∈ before, Fails r cs) (hq : Reads q cs rest holds)
    (after : List (Parser α)) :
    Reads (firstOf p (before ++ q :: after)) cs rest holds := by
  intro pos
  obtain ⟨fault, hp⟩ := hp pos
  obtain ⟨x, pos', alt, hall, hx⟩ := Reads.firstOfAfter hbefore hq after fault pos
  exact ⟨x, pos', alt, by rw [firstOf, hp]; exact hall, hx⟩

/-- The fault from before makes no difference to a success. -/
theorem firstOfAfter_done {others : List (Parser α)} {a : Fault} (b : Fault) {c c' : Cursor}
    {x : α} {alt : Option Fault} (h : Parser.firstOfAfter a others c = .done x c' alt) :
    Parser.firstOfAfter b others c = .done x c' alt := by
  induction others generalizing a b with
  | nil => cases h
  | cons r others ih =>
    rw [Parser.firstOfAfter] at h ⊢
    cases hr : r c with
    | done y c₁ alt₁ => simpa only [hr] using h
    | fail fault =>
      simp only [hr] at h ⊢
      exact ih _ h

/-- A first alternative that fails is passed over. -/
theorem Reads.firstOf_skip {others : List (Parser α)} (hp : Fails p cs)
    (h : Reads (firstOf q others) cs rest holds) :
    Reads (firstOf p (q :: others)) cs rest holds := by
  intro pos
  obtain ⟨fault, hp⟩ := hp pos
  obtain ⟨x, pos', alt, hx, hholds⟩ := h pos
  refine ⟨x, pos', alt, ?_, hholds⟩
  rw [firstOf] at hx ⊢
  simp only [hp, Parser.firstOfAfter]
  cases hq : q ⟨pos, cs⟩ with
  | done y c₁ alt₁ => simpa only [hq] using hx
  | fail fault' =>
    simp only [hq] at hx
    exact firstOfAfter_done _ hx

theorem Fails.firstOfAfter {others : List (Parser α)} (h : ∀ r ∈ others, Fails r cs)
    (a : Fault) : Fails (Parser.firstOfAfter a others) cs := by
  induction others generalizing a with
  | nil => exact fun _ => ⟨a, rfl⟩
  | cons r others ih =>
    intro pos
    obtain ⟨fault, hr⟩ := h r (List.mem_cons_self ..) pos
    obtain ⟨fault', hall⟩ :=
      ih (fun r' h' => h r' (List.mem_cons_of_mem _ h')) (Fault.max fault a) pos
    refine ⟨fault', ?_⟩
    rw [Parser.firstOfAfter, hr]
    exact hall

theorem Fails.firstOf {others : List (Parser α)} (hp : Fails p cs)
    (h : ∀ r ∈ others, Fails r cs) : Fails (Parser.firstOf p others) cs := by
  intro pos
  obtain ⟨fault, hp⟩ := hp pos
  obtain ⟨fault', hall⟩ := Fails.firstOfAfter h fault pos
  exact ⟨fault', by rw [Parser.firstOf, hp]; exact hall⟩

/-- One alternative is no choice. -/
theorem Reads.of_firstOf_one (h : Reads (Parser.firstOf p []) cs rest holds) :
    Reads p cs rest holds := by
  intro pos
  obtain ⟨x, pos', alt, hx, hholds⟩ := h pos
  refine ⟨x, pos', alt, ?_, hholds⟩
  cases hp : p ⟨pos, cs⟩ with
  | done y c a => simpa [Parser.firstOf, hp] using hx
  | fail fault => simp [Parser.firstOf, Parser.firstOfAfter, hp] at hx

theorem Fails.of_firstOf_one (h : Fails (Parser.firstOf p []) cs) : Fails p cs := by
  intro pos
  obtain ⟨fault, hx⟩ := h pos
  cases hp : p ⟨pos, cs⟩ with
  | done y c a => simp [Parser.firstOf, hp] at hx
  | fail fault => exact ⟨fault, rfl⟩

/-- The two choices between two parsers differ in their faults only. -/
theorem Reads.of_firstOf_two (h : Reads (Parser.firstOf p [q]) cs rest holds) :
    Reads (Parser.orElse p q) cs rest holds := by
  intro pos
  obtain ⟨x, pos', alt, hx, hholds⟩ := h pos
  refine ⟨x, pos', alt, ?_, hholds⟩
  cases hp : p ⟨pos, cs⟩ with
  | done y c a => simpa [Parser.firstOf, Parser.orElse, hp] using hx
  | fail fault =>
    cases hq : q ⟨pos, cs⟩ with
    | done y c a => simpa [Parser.firstOf, Parser.firstOfAfter, Parser.orElse, hp, hq] using hx
    | fail fault' => simp [Parser.firstOf, Parser.firstOfAfter, hp, hq] at hx

theorem Fails.of_firstOf_two (h : Fails (Parser.firstOf p [q]) cs) :
    Fails (Parser.orElse p q) cs := by
  intro pos
  obtain ⟨fault, hx⟩ := h pos
  cases hp : p ⟨pos, cs⟩ with
  | done y c a => simp [Parser.firstOf, hp] at hx
  | fail fault =>
    cases hq : q ⟨pos, cs⟩ with
    | done y c a => simp [Parser.firstOf, Parser.firstOfAfter, hp, hq] at hx
    | fail fault' => exact ⟨Fault.max fault fault', by simp [Parser.orElse, hp, hq]⟩

theorem Reads.optional {holds' : Option α → Prop} (hp : Reads p cs rest holds)
    (h : ∀ x, holds x → holds' (some x)) : Reads (Parser.optional p) cs rest holds' := by
  intro pos
  obtain ⟨x, pos', alt, hp, hx⟩ := hp pos
  exact ⟨some x, pos', alt, by rw [Parser.optional, hp], h x hx⟩

theorem Reads.optional_none (hp : Fails p cs) : Reads (Parser.optional p) cs cs (· = none) := by
  intro pos
  obtain ⟨fault, hp⟩ := hp pos
  exact ⟨none, pos, some fault, by rw [Parser.optional, hp], rfl⟩

/-! ### Repetitions -/

/-- With fuel for the text `cs`, the rounds of a repetition read up to `rest`. -/
def Repeats (p : Parser α) (cs rest : List Char) (holds : List α → Prop) : Prop :=
  ∀ fuel : List Char, cs.length ≤ fuel.length → ∀ read pos alt, ∃ values pos' alt',
    manyFrom p fuel read ⟨pos, cs⟩ alt = .done (read.reverse ++ values) ⟨pos', rest⟩ alt' ∧
      holds values

theorem Repeats.stop {holds : List α → Prop} (hp : Fails p cs) (h : holds []) :
    Repeats p cs cs holds := by
  intro fuel _ read pos alt
  obtain ⟨fault, hp⟩ := hp pos
  refine ⟨[], pos, Fault.merge alt (some fault), ?_, h⟩
  rw [manyFrom.eq_def]
  simp only [hp, List.append_nil]

theorem Repeats.round {before after : List α → Prop} (hp : Reads p cs mid holds)
    (hlt : mid.length < cs.length) (hrest : Repeats p mid rest before)
    (h : ∀ x xs, holds x → before xs → after (x :: xs)) : Repeats p cs rest after := by
  intro fuel hfuel read pos alt
  obtain ⟨x, pos₁, alt₁, hp, hx⟩ := hp pos
  cases fuel with
  | nil => simp at hfuel; simp [hfuel] at hlt
  | cons c fuel =>
    -- the round has read something, so the fuel that is left covers the text that is left
    have hle : mid.length ≤ fuel.length := by simp at hfuel; omega
    obtain ⟨xs, pos₂, alt₂, hmany, hxs⟩ := hrest fuel hle (x :: read) pos₁ (Fault.merge alt alt₁)
    refine ⟨x :: xs, pos₂, alt₂, ?_, h x xs hx hxs⟩
    rw [manyFrom, hp]
    simpa using hmany

theorem Repeats.mono {before after : List α → Prop} (h : Repeats p cs rest before)
    (himp : ∀ xs, before xs → after xs) : Repeats p cs rest after := by
  intro fuel hfuel read pos alt
  obtain ⟨xs, pos', alt', hmany, hxs⟩ := h fuel hfuel read pos alt
  exact ⟨xs, pos', alt', hmany, himp xs hxs⟩

theorem Repeats.many {holds : List α → Prop} (h : Repeats p cs rest holds) :
    Reads (Parser.many p) cs rest holds := by
  intro pos
  obtain ⟨xs, pos', alt, hmany, hxs⟩ := h cs (Nat.le_refl _) [] pos none
  exact ⟨xs, pos', alt, hmany, hxs⟩

/-- At least one round. -/
theorem Repeats.many1 {before after : List α → Prop} (hp : Reads p cs mid holds)
    (hrest : Repeats p mid rest before) (h : ∀ x xs, holds x → before xs → after (x :: xs)) :
    Reads (Parser.many1 p) cs rest after := by
  intro pos
  obtain ⟨x, pos₁, alt₁, hp, hx⟩ := hp pos
  obtain ⟨xs, pos₂, alt₂, hmany, hxs⟩ := hrest mid (Nat.le_refl _) [x] pos₁ alt₁
  exact ⟨x :: xs, pos₂, alt₂, by rw [Parser.many1, hp]; simpa using hmany, h x xs hx hxs⟩

theorem Reads.many_none (hp : Fails p cs) : Reads (Parser.many p) cs cs (· = []) :=
  Repeats.many (Repeats.stop hp rfl)

theorem Fails.many1 (hp : Fails p cs) : Fails (Parser.many1 p) cs := by
  intro pos
  obtain ⟨fault, hp⟩ := hp pos
  exact ⟨fault, by rw [Parser.many1, hp]⟩

theorem Reads.separated_none {separator : Parser Unit} {last : LastSeparator} (hp : Fails p cs) :
    Reads (Parser.separated p separator last) cs cs (· = []) := by
  intro pos
  obtain ⟨fault, hp⟩ := hp pos
  have hfault : Parser.separated1 p separator last ⟨pos, cs⟩ = .fail fault := by
    rw [Parser.separated1, hp]
  exact ⟨[], pos, some fault, by rw [Parser.separated, hfault], rfl⟩

/-- Behind the first item a list is the repetition of a separator with an item. -/
theorem itemsFrom_of_manyFrom {separator : Parser Unit} {fuel : List Char} {read xs : List α}
    {c c' : Cursor} {alt alt' : Option Fault} (a : Option Fault)
    (h : manyFrom (do separator; p) fuel read c alt = .done xs c' alt') :
    ∃ a' ended, itemsFrom p separator fuel read c a = (xs, c', a', ended) := by
  have hround (c : Cursor) : (do separator; p) c = Parser.bind separator (fun _ => p) c := rfl
  fun_induction itemsFrom p separator fuel read c a generalizing alt with
  | case1 fuel read c a fault hs =>
    rw [manyFrom.eq_def] at h
    simp only [hround, Parser.bind, hs] at h
    cases h
    exact ⟨_, _, rfl⟩
  | case2 fuel read c a _ c₁ alt₁ hs fault hp =>
    rw [manyFrom.eq_def] at h
    simp only [hround, Parser.bind, hs, hp, Reply.after] at h
    cases h
    exact ⟨_, _, rfl⟩
  | case3 read c a _ c₁ alt₁ hs x c₂ alt₂ hp =>
    rw [manyFrom.eq_def] at h
    simp only [hround, Parser.bind, hs, hp, Reply.after] at h
    cases h
    exact ⟨_, _, rfl⟩
  | case4 read c a _ c₁ alt₁ hs x c₂ alt₂ hp y fuel ih =>
    rw [manyFrom.eq_def] at h
    simp only [hround, Parser.bind, hs, hp, Reply.after] at h
    exact ih h

/-- A list is its first item with the rounds behind it. -/
theorem Reads.separated {separator : Parser Unit} {before after : List α → Prop}
    (hp : Reads p cs mid holds) (hrest : Repeats (do separator; p) mid rest before)
    (h : ∀ x xs, holds x → before xs → after (x :: xs)) :
    Reads (Parser.separated p separator .refused) cs rest after := by
  intro pos
  obtain ⟨x, pos₁, alt₁, hp, hx⟩ := hp pos
  obtain ⟨xs, pos₂, alt₂, hmany, hxs⟩ := hrest mid (Nat.le_refl _) [x] pos₁ alt₁
  obtain ⟨alt₃, ended, hitems⟩ := itemsFrom_of_manyFrom alt₁ hmany
  have hone : Parser.separated1 p separator .refused ⟨pos, cs⟩ =
      .done (x :: xs) ⟨pos₂, rest⟩ (Fault.merge alt₃ ended) := by
    rw [Parser.separated1, hp]
    simp only [hitems]
    rfl
  exact ⟨x :: xs, pos₂, _, by rw [Parser.separated, hone], h x xs hx hxs⟩

/-- A list of one item, and no separator behind it. -/
theorem Reads.separated_one {separator : Parser Unit} (hp : Reads p cs rest holds)
    (hs : Fails separator rest) :
    Reads (Parser.separated p separator .refused) cs rest fun xs => ∀ x ∈ xs, holds x :=
  hp.separated (Repeats.stop hs.bind (List.forall_mem_nil holds)) fun _ _ hx hxs =>
    List.forall_mem_cons.mpr ⟨hx, hxs⟩

/-! ### Spans and conditions -/

theorem Reads.spanned (hp : Reads p cs rest holds) :
    Reads (Parser.spanned p) cs rest fun x => holds x.1 := by
  intro pos
  obtain ⟨x, pos', alt, hp, hx⟩ := hp pos
  exact ⟨_, pos', alt, by rw [Parser.spanned, hp], hx⟩

theorem Fails.spanned (hp : Fails p cs) : Fails (Parser.spanned p) cs := by
  intro pos
  obtain ⟨fault, hp⟩ := hp pos
  exact ⟨fault, by rw [Parser.spanned, hp]⟩

theorem Reads.accepted {judge : α → Except (Option Refusal) β} {after : β → Prop}
    (hp : Reads p cs rest holds) (hjudge : ∀ x, holds x → ∃ y, judge x = .ok y ∧ after y) :
    Reads (Parser.accepted p judge) cs rest after := by
  intro pos
  obtain ⟨x, pos', alt, hp, hx⟩ := hp pos
  obtain ⟨y, hjudge, hy⟩ := hjudge x hx
  exact ⟨y, pos', alt, by rw [Parser.accepted, hp]; simp only [hjudge], hy⟩

theorem Fails.accepted {judge : α → Except (Option Refusal) β} (hp : Fails p cs) :
    Fails (Parser.accepted p judge) cs := by
  intro pos
  obtain ⟨fault, hp⟩ := hp pos
  exact ⟨fault, by rw [Parser.accepted, hp]⟩

theorem Fails.accepted_refused {judge : α → Except (Option Refusal) β}
    (hp : Reads p cs rest holds) (hjudge : ∀ x, holds x → ∃ refusal, judge x = .error refusal) :
    Fails (Parser.accepted p judge) cs := by
  intro pos
  obtain ⟨x, pos', alt, hp, hx⟩ := hp pos
  obtain ⟨refusal, hjudge⟩ := hjudge x hx
  have hfault : Parser.accepted p judge ⟨pos, cs⟩ =
      .fail ⟨pos', Cursor.spanTo ⟨pos, cs⟩ ⟨pos', rest⟩, none, [], refusal⟩ := by
    rw [Parser.accepted, hp]
    simp only [hjudge]
  exact ⟨_, hfault⟩

/-! ### Characters -/

theorem Reads.satisfy {f : Char → Bool} {c : Char} (h : f c = true) :
    Reads (Parser.satisfy f) (c :: cs) cs (· = c) := fun pos =>
  ⟨c, pos + 1, none, by simp [Parser.satisfy, h], rfl⟩

theorem Fails.satisfy {f : Char → Bool} (h : ∀ c ∈ cs.head?, f c = false) :
    Fails (Parser.satisfy f) cs := by
  intro pos
  cases cs with
  | nil => exact ⟨_, rfl⟩
  | cons c cs => exact ⟨Cursor.fault ⟨pos, c :: cs⟩ [], by simp [Parser.satisfy, h c rfl]⟩

theorem Reads.exactly (w rest : List Char) :
    Reads (Parser.exactly w) (w ++ rest) rest fun _ => True := by
  induction w with
  | nil => exact fun pos => ⟨(), pos, none, rfl, trivial⟩
  | cons c w ih =>
    intro pos
    obtain ⟨x, pos', alt, hw, -⟩ := ih (pos + 1)
    exact ⟨x, pos', alt, by simpa [Parser.exactly] using hw, trivial⟩

theorem Fails.exactly {w : List Char} (h : ¬ w <+: cs) : Fails (Parser.exactly w) cs := by
  induction w generalizing cs with
  | nil => exact absurd List.nil_prefix h
  | cons c w ih =>
    intro pos
    cases cs with
    | nil => exact ⟨_, rfl⟩
    | cons d cs =>
      by_cases hd : d = c
      · subst hd
        have hw : ¬ w <+: cs := fun hw => h ((List.prefix_cons_inj d).mpr hw)
        obtain ⟨fault, hf⟩ := ih hw (pos + 1)
        exact ⟨fault, by simpa [Parser.exactly] using hf⟩
      · exact ⟨Cursor.fault ⟨pos, d :: cs⟩ [.char c], by simp [Parser.exactly, hd]⟩

/-- All characters of a class, up to one that is not of it. -/
theorem Repeats.satisfy {f : Char → Bool} {xs : List Char} (hxs : ∀ c ∈ xs, f c = true)
    (hrest : ∀ c ∈ rest.head?, f c = false) :
    Repeats (Parser.satisfy f) (xs ++ rest) rest (· = xs) := by
  induction xs with
  | nil => exact Repeats.stop (Fails.satisfy hrest) rfl
  | cons c xs ih =>
    refine Repeats.round (Reads.satisfy (hxs c (List.mem_cons_self ..))) (by simp)
      (ih fun d hd => hxs d (List.mem_cons_of_mem _ hd)) ?_
    rintro x ys rfl rfl
    rfl

theorem Reads.endOfInput : Reads Parser.endOfInput [] [] fun _ => True := fun pos =>
  ⟨(), pos, none, rfl, trivial⟩

theorem Fails.endOfInput (c : Char) (cs : List Char) : Fails Parser.endOfInput (c :: cs) :=
  fun _ => ⟨_, rfl⟩

/-- The characters before the first place where the parser succeeds are skipped. -/
theorem Reads.skipThrough {before : List Char}
    (hskip : ∀ x xs, x :: xs <:+ before → Fails p (x :: xs ++ mid))
    (hp : Reads p mid rest holds) :
    Reads (Parser.skipThrough p) (before ++ mid) rest fun _ => True := by
  have hskipped (pos : Nat) (alt : Option Fault) : ∃ pos' alt',
      skipFrom p (before ++ mid) pos alt = .done () ⟨pos', rest⟩ alt' := by
    induction before generalizing pos alt with
    | nil =>
      obtain ⟨x, pos', alt', hp, -⟩ := hp pos
      refine ⟨pos', Fault.merge alt alt', ?_⟩
      cases mid <;> simp only [List.nil_append, skipFrom, hp]
    | cons x before ih =>
      obtain ⟨fault, hfail⟩ := hskip x before (List.suffix_refl _) pos
      obtain ⟨pos', alt', h⟩ := ih
        (fun y ys hys => hskip y ys (hys.trans (List.suffix_cons x before))) (pos + 1)
        (Fault.merge alt (some fault))
      exact ⟨pos', alt', by rw [List.cons_append, skipFrom, ← List.cons_append, hfail]; exact h⟩
  intro pos
  obtain ⟨pos', alt', h⟩ := hskipped pos none
  exact ⟨(), pos', alt', h, trivial⟩

/-! ### Blanks and tokens -/

/-- The text starts with something other than a blank or a comment, or it is empty. -/
structure Solid (cs : List Char) : Prop where
  head : ∀ c ∈ cs.head?, isBlank c = false
  noLineComment : ¬ ['/', '/'] <+: cs
  noBlockComment : ¬ ['/', '*'] <+: cs

theorem Solid.nil : Solid [] where
  head := by simp
  noLineComment := by simp
  noBlockComment := by simp

theorem Solid.cons {c : Char} (hblank : isBlank c = false) (hslash : c ≠ '/') :
    Solid (c :: cs) where
  head := by simpa using hblank
  noLineComment := by simp [Ne.symm hslash]
  noBlockComment := by simp [Ne.symm hslash]

/-- Blanks are read up to something solid. -/
theorem Reads.blanks {gap : List Char} (hgap : ∀ c ∈ gap, isBlank c = true)
    (hrest : Solid rest) : Reads Grammar.blanks (gap ++ rest) rest fun _ => True := by
  have hround : Repeats (Parser.orElse (Parser.orElse
      (do let _ ← Parser.satisfy isBlank; Pure.pure ()) lineComment) blockComment)
      (gap ++ rest) rest fun _ => True := by
    induction gap with
    | nil =>
      -- no blank, no line comment, no block comment
      refine Repeats.stop (Fails.orElse (Fails.orElse ?_ ?_) ?_) trivial
      · exact (Fails.satisfy hrest.head).bind
      · exact (Fails.exactly hrest.noLineComment).bind
      · exact (Fails.exactly hrest.noBlockComment).bind
    | cons c gap ih =>
      have hblank : Reads (do let _ ← Parser.satisfy isBlank; Pure.pure ())
          (c :: (gap ++ rest)) (gap ++ rest) fun _ => True :=
        (Reads.satisfy (hgap c (List.mem_cons_self ..))).bind fun _ _ => Reads.pure trivial
      exact Repeats.round hblank.orElse_left.orElse_left (by simp)
        (ih fun d hd => hgap d (List.mem_cons_of_mem _ hd)) fun _ _ _ _ => trivial
  exact hround.many.bind fun _ _ => Reads.pure trivial

theorem Reads.blanks_none (h : Solid cs) : Reads Grammar.blanks cs cs fun _ => True :=
  Reads.blanks (List.forall_mem_nil _) h

theorem Reads.token {gap : List Char} (hcs : Solid cs) (hp : Reads p cs (gap ++ rest) holds)
    (hgap : ∀ c ∈ gap, isBlank c = true) (hrest : Solid rest) :
    Reads (Grammar.token p) cs rest holds :=
  (Reads.blanks_none hcs).bind fun _ _ => hp.bind fun _ hx =>
    (Reads.blanks hgap hrest).bind fun _ _ => Reads.pure hx

theorem Fails.token (hcs : Solid cs) (hp : Fails p cs) : Fails (Grammar.token p) cs :=
  Fails.bind_after (Reads.blanks_none hcs) fun _ _ => hp.bind

theorem Reads.symbol {s : String} {gap : List Char} (hs : Solid (s.toList ++ (gap ++ rest)))
    (hgap : ∀ c ∈ gap, isBlank c = true) (hrest : Solid rest) :
    Reads (Grammar.symbol s) (s.toList ++ (gap ++ rest)) rest fun _ => True :=
  Reads.token hs (Reads.exactly s.toList (gap ++ rest)) hgap hrest

theorem Reads.symbol_tight {s : String} (hs : Solid (s.toList ++ rest)) (hrest : Solid rest) :
    Reads (Grammar.symbol s) (s.toList ++ rest) rest fun _ => True := by
  have hsign : Reads (Parser.exactly s.toList) (s.toList ++ rest) ([] ++ rest) fun _ => True :=
    Reads.exactly s.toList rest
  exact Reads.token hs hsign (List.forall_mem_nil _) hrest

theorem Fails.symbol {s : String} (hcs : Solid cs) (hs : ¬ s.toList <+: cs) :
    Fails (Grammar.symbol s) cs := Fails.token hcs (Fails.exactly hs)

/-! ### Words -/

theorem isNamePart_of_isNameStart {c : Char} (h : isNameStart c = true) :
    isNamePart c = true := by
  simp only [isNameStart, isNamePart, Char.isAlphanum, Bool.or_eq_true] at h ⊢
  rcases h with h | h
  · exact .inl (.inl h)
  · exact .inr h

theorem isBlank_eq_false_of_isNamePart {c : Char} (h : isNamePart c = true) :
    isBlank c = false := by
  have hrange : 48 ≤ c.toNat ∧ c.toNat ≤ 122 := by
    simp only [isNamePart, Bool.or_eq_true, beq_iff_eq, isAlphanum_iff] at h
    rcases h with h | rfl
    · omega
    · decide
  simp only [isBlank, Bool.or_eq_false_iff, Bool.and_eq_false_iff, decide_eq_false_iff_not,
    beq_eq_false_iff_ne]
  omega

theorem isNamePart_eq_false_of_isBlank {c : Char} (h : isBlank c = true) :
    isNamePart c = false := by
  rw [← Bool.not_eq_true]
  intro hpart
  rw [isBlank_eq_false_of_isNamePart hpart] at h
  cases h

theorem isDigit_eq_false_of_isNameStart {c : Char} (h : isNameStart c = true) :
    c.isDigit = false := by
  rw [← Bool.not_eq_true]
  intro hdigit
  have hrange := Char.isDigit_iff_toNat.mp hdigit
  simp only [isNameStart, Bool.or_eq_true, beq_iff_eq, isAlpha_iff] at h
  rcases h with h | rfl
  · simp only [Char.reduceToNat] at hrange
    omega
  · cases hdigit

theorem Solid.word {c : Char} (h : isNameStart c = true) : Solid (c :: cs) := by
  refine Solid.cons (isBlank_eq_false_of_isNamePart (isNamePart_of_isNameStart h)) ?_
  rintro rfl
  cases h

theorem Reads.word {c : Char} {w : List Char} (hc : isNameStart c = true)
    (hw : ∀ d ∈ w, isNamePart d = true) (hrest : ∀ d ∈ rest.head?, isNamePart d = false) :
    Reads Grammar.word (c :: (w ++ rest)) rest (· = String.ofList (c :: w)) := by
  refine (Reads.satisfy hc).bind fun x hx => ?_
  refine (Repeats.satisfy hw hrest).many.bind fun xs hxs => Reads.pure ?_
  rw [hx, hxs]

theorem Fails.word (h : ∀ c ∈ cs.head?, isNameStart c = false) : Fails Grammar.word cs :=
  (Fails.satisfy h).bind

/-- A keyword cannot be read where no word starts. -/
theorem Fails.keyword {name : String} (hcs : Solid cs)
    (h : ∀ c ∈ cs.head?, isNameStart c = false) : Fails (Grammar.keyword name) cs :=
  Fails.token hcs (Fails.accepted (Fails.word h))

/-- A keyword cannot be read where another word stands. -/
theorem Fails.keyword_other {name w : String} (hcs : Solid cs)
    (hw : Reads Grammar.word cs rest (· = w)) (hne : w ≠ name) :
    Fails (Grammar.keyword name) cs := by
  refine Fails.token hcs (Fails.accepted_refused hw ?_)
  rintro x rfl
  exact ⟨none, if_neg hne⟩

theorem Reads.keyword {w : String} {gap : List Char} (hcs : Solid cs)
    (hw : Reads Grammar.word cs (gap ++ rest) (· = w)) (hgap : ∀ c ∈ gap, isBlank c = true)
    (hrest : Solid rest) : Reads (Grammar.keyword w) cs rest fun _ => True := by
  refine Reads.token hcs (Reads.accepted hw ?_) hgap hrest
  rintro x rfl
  exact ⟨(), if_pos rfl, trivial⟩

theorem Reads.identifier {w : String} {gap : List Char} (hcs : Solid cs)
    (hw : Reads Grammar.word cs (gap ++ rest) (· = w)) (hfree : w ∉ keywords)
    (hgap : ∀ c ∈ gap, isBlank c = true) (hrest : Solid rest) :
    Reads Grammar.identifier cs rest (· = w) := by
  refine Reads.token hcs (Reads.accepted hw ?_) hgap hrest
  rintro x rfl
  exact ⟨x, if_neg hfree, rfl⟩

theorem Fails.identifier (hcs : Solid cs) (h : ∀ c ∈ cs.head?, isNameStart c = false) :
    Fails Grammar.identifier cs := Fails.token hcs (Fails.accepted (Fails.word h))

/-- No keyword is a name. -/
theorem Fails.identifier_keyword {w : String} (hcs : Solid cs)
    (hw : Reads Grammar.word cs rest (· = w)) (hkeyword : w ∈ keywords) :
    Fails Grammar.identifier cs := by
  refine Fails.token hcs (Fails.accepted_refused hw ?_)
  rintro x rfl
  exact ⟨some (.keywordAsName x), if_pos hkeyword⟩

end ScriptOutline.Grammar
