/-
ScriptOutline/Proofs/Moved.lean

The same text, read at another place.  Two runs are compared: one reads a text at some position,
the other reads it `k` characters later.  `Moves k n p p' R` says that on texts of at most `n`
characters `p` and `p'` come to the same end: both fail, or both succeed with the same text left
over, again `k` characters apart, and with values that `R` relates.  The two parsers may differ in
the levels of nesting that they are made for; faults may differ as well, since no parser looks at
the fault of another one.

There is one rule for each combinator.  The rule for `do` hands related values on to the second
parsers (`Moves.bind`).  Where the first parser reads at least one character, what follows has a
shorter text to read, and that is where rules of a lower level may be used (`Moves.after`).  Spans
are moved (`Moves.spanned_bind`): the span of what was read does not end at position zero unless
the whole source is empty, so it is never taken for the span of what was not written.
-/
import Mathlib.Data.List.Forall2
import ScriptOutline.Proofs.Advance

namespace ScriptOutline

/-- The span of the same text `k` characters later.  What was not written stays so. -/
def Span.moved (k : Nat) (s : Span) : Span :=
  if s = .unwritten then s else ⟨s.start + k, s.stop + k⟩

theorem Span.moved_of_stop {k : Nat} {s : Span} (h : 0 < s.stop) :
    s.moved k = ⟨s.start + k, s.stop + k⟩ :=
  if_neg fun heq => by simp [heq, unwritten] at h

/-- Lists whose items are related by a function. -/
theorem eq_map_of_forall₂ {α β : Type} {R : α → β → Prop} {f : α → β} {xs : List α} {ys : List β}
    (h : List.Forall₂ R xs ys) (hR : ∀ x y, R x y → y = f x) : ys = xs.map f := by
  have heq : List.Forall₂ Eq (xs.map f) ys :=
    List.forall₂_map_left_iff.mpr (h.imp fun x y hxy => (hR x y hxy).symm)
  rw [List.forall₂_eq_eq_eq] at heq
  exact heq.symm

namespace Grammar

open ScriptOutline.Grammar.Parser

variable {α β : Type} {k n m : Nat}

/-! ### The judgment -/

/-- The same text `k` characters later. -/
def Cursor.moved (k : Nat) (c : Cursor) : Cursor := ⟨c.pos + k, c.rest⟩

/-- Two replies to the same text, the second one `k` characters later. -/
inductive Reply.Agrees (k : Nat) (c : Cursor) (R : α → β → Prop) : Reply α → Reply β → Prop
  | done {x : α} {y : β} {d : Cursor} {alt alt' : Option Fault} : R x y →
      d.rest.length ≤ c.rest.length → d.pos + d.rest.length = c.pos + c.rest.length →
      Agrees k c R (.done x d alt) (.done y (d.moved k) alt')
  | fail {fault fault' : Fault} : Agrees k c R (.fail fault) (.fail fault')

/-- Of a source that is not empty, at most `n` characters are left. -/
structure Cursor.Within (n : Nat) (c : Cursor) : Prop where
  length : c.rest.length ≤ n
  source : 0 < c.pos + c.rest.length

/-- The parsers come to the same end on the same text of at most `n` characters, `k` characters
apart. -/
def Moves (k n : Nat) (p p' : Parser α) (R : α → α → Prop) : Prop :=
  ∀ c : Cursor, c.Within n → (p c).Agrees k c R (p' (c.moved k))

namespace Reply.Agrees

variable {c d : Cursor} {R S : α → β → Prop} {r : Reply α} {r' : Reply β}

theorem mono (h : Agrees k c R r r') (himp : ∀ x y, R x y → S x y) : Agrees k c S r r' := by
  cases h with
  | done hx hle hsize => exact .done (himp _ _ hx) hle hsize
  | fail => exact .fail

/-- What agrees from a later cursor agrees from an earlier one. -/
theorem before (h : Agrees k d R r r') (hle : d.rest.length ≤ c.rest.length)
    (hsize : d.pos + d.rest.length = c.pos + c.rest.length) : Agrees k c R r r' := by
  cases h with
  | done hx hle' hsize' => exact .done hx (hle'.trans hle) (hsize'.trans hsize)
  | fail => exact .fail

/-- Faults that are remembered do not matter. -/
theorem after (h : Agrees k c R r r') (alt alt' : Option Fault) :
    Agrees k c R (r.after alt) (r'.after alt') := by
  cases h with
  | done hx hle hsize => exact .done hx hle hsize
  | fail => exact .fail

end Reply.Agrees

/-- The same for further items of a list. -/
inductive ItemsAgree (k : Nat) (c : Cursor) (R : α → β → Prop) :
    List α × Cursor × Option Fault × Option Fault →
      List β × Cursor × Option Fault × Option Fault → Prop
  | intro {xs : List α} {ys : List β} {d : Cursor} {alts alts' : Option Fault × Option Fault} :
      List.Forall₂ R xs ys → d.rest.length ≤ c.rest.length →
      d.pos + d.rest.length = c.pos + c.rest.length →
      ItemsAgree k c R (xs, d, alts) (ys, d.moved k, alts')

theorem ItemsAgree.before {c d : Cursor} {R : α → β → Prop}
    {r : List α × Cursor × Option Fault × Option Fault}
    {r' : List β × Cursor × Option Fault × Option Fault} (h : ItemsAgree k d R r r')
    (hle : d.rest.length ≤ c.rest.length)
    (hsize : d.pos + d.rest.length = c.pos + c.rest.length) : ItemsAgree k c R r r' := by
  cases h with
  | intro hx hle' hsize' => exact .intro hx (hle'.trans hle) (hsize'.trans hsize)

theorem Cursor.Within.of_le {c d : Cursor} (h : c.Within n) (hle : d.rest.length ≤ c.rest.length)
    (hsize : d.pos + d.rest.length = c.pos + c.rest.length) : d.Within n :=
  ⟨hle.trans h.length, hsize ▸ h.source⟩

/-- The span of what was read ends behind the start of the source. -/
theorem Cursor.Within.stop_pos {c : Cursor} (h : c.Within n) (d : Cursor) :
    0 < (c.spanTo d).stop := by
  rw [Cursor.spanTo]
  split
  · next hrest => simpa [List.isEmpty_iff.mp hrest] using h.source
  · exact (Nat.succ_pos _).trans_le (Nat.le_max_right _ _)

theorem Cursor.spanTo_moved (c d : Cursor) : (c.moved k).spanTo (d.moved k) =
    ⟨(c.spanTo d).start + k, (c.spanTo d).stop + k⟩ := by
  have hmax := Nat.add_max_add_right d.pos (c.pos + 1) k
  rw [Nat.add_right_comm] at hmax
  cases hrest : c.rest.isEmpty <;> simp [Cursor.spanTo, Cursor.moved, hrest, hmax]

/-! ### Characters -/

/-- Behind a character the source is as long as before. -/
theorem size_cons (pos : Nat) (x : Char) (rest : List Char) :
    pos + 1 + rest.length = pos + (x :: rest).length := by
  rw [List.length_cons]
  omega

theorem moves_satisfy (f : Char → Bool) : Moves k n (satisfy f) (satisfy f) Eq := by
  rintro ⟨pos, rest⟩ hc
  cases rest with
  | nil => exact .fail
  | cons x rest =>
    simp only [Parser.satisfy, Cursor.moved]
    split
    · have hd : (⟨pos + 1 + k, rest⟩ : Cursor) = Cursor.moved k ⟨pos + 1, rest⟩ := rfl
      rw [Nat.add_right_comm, hd]
      exact .done rfl (Nat.le_succ _) (size_cons pos x rest)
    · exact .fail

theorem moves_exactly (w : List Char) : Moves k n (exactly w) (exactly w) Eq := by
  induction w with
  | nil => exact fun c _ => .done rfl (Nat.le_refl _) rfl
  | cons x w ih =>
    rintro ⟨pos, rest⟩ hc
    cases rest with
    | nil => exact .fail
    | cons y rest =>
      simp only [Parser.exactly, Cursor.moved]
      split
      · have hle : rest.length ≤ (y :: rest).length := Nat.le_succ _
        have hsize := size_cons pos y rest
        rw [Nat.add_right_comm]
        exact (ih ⟨pos + 1, rest⟩ (hc.of_le hle hsize)).before hle hsize
      · exact .fail

theorem moves_endOfInput : Moves k n endOfInput endOfInput Eq := by
  rintro ⟨pos, rest⟩ hc
  cases rest with
  | nil => exact .done rfl (Nat.le_refl _) rfl
  | cons x rest => exact .fail

namespace Moves

variable {p p' q q' : Parser α} {R : α → α → Prop} {S : β → β → Prop}

theorem mono {R' : α → α → Prop} (h : Moves k n p p' R) (himp : ∀ x y, R x y → R' x y) :
    Moves k n p p' R' :=
  fun c hc => (h c hc).mono himp

theorem of_le (h : Moves k n p p' R) (hle : m ≤ n) : Moves k m p p' R :=
  fun c hc => h c ⟨hc.length.trans hle, hc.source⟩

/-! ### Sequences -/

theorem pure {x y : α} (h : R x y) : Moves k n (pure x) (pure y) R :=
  fun _ _ => .done h (Nat.le_refl _) rfl

theorem bind {f f' : α → Parser β} (hp : Moves k n p p' R)
    (hf : ∀ x y, R x y → Moves k n (f x) (f' y) S) : Moves k n (p >>= f) (p' >>= f') S := by
  intro c hc
  have h := hp c hc
  show Reply.Agrees k c S (Parser.bind p f c) (Parser.bind p' f' (c.moved k))
  rw [Parser.bind, Parser.bind]
  generalize p c = r, p' (c.moved k) = r' at h ⊢
  cases h with
  | fail => exact .fail
  | done hx hle hsize => exact ((hf _ _ hx _ (hc.of_le hle hsize)).before hle hsize).after _ _

/-- After at least one character, less of the text is left. -/
theorem after {f f' : α → Parser β} (hadvances : ∀ size, Advances size p)
    (hp : Moves k n p p' R) (hf : ∀ m < n, ∀ x y, R x y → Moves k m (f x) (f' y) S) :
    Moves k n (p >>= f) (p' >>= f') S := by
  intro c hc
  have h := hp c hc
  have hforward := hadvances (c.pos + c.rest.length) c.pos c.rest rfl
  show Reply.Agrees k c S (Parser.bind p f c) (Parser.bind p' f' (c.moved k))
  rw [Parser.bind, Parser.bind]
  generalize p c = r, p' (c.moved k) = r' at h hforward ⊢
  cases h with
  | fail => exact .fail
  | @done x y d alt alt' hx hle hsize =>
    obtain ⟨-, -, hlt⟩ := hforward x d alt rfl
    have hlength := hc.length
    -- the second parser has what is left to read, and that is less than `n` characters
    have hd : d.Within d.rest.length := ⟨Nat.le_refl _, hsize ▸ hc.source⟩
    exact ((hf _ (by omega) _ _ hx d hd).before hle hsize).after _ _

/-- The values of the first parsers are the same. -/
theorem bind_same {f f' : α → Parser β} (hp : Moves k n p p' Eq)
    (hf : ∀ x, Moves k n (f x) (f' x) S) : Moves k n (p >>= f) (p' >>= f') S :=
  hp.bind fun x _ h => h ▸ hf x

theorem after_same {f f' : α → Parser β} (hadvances : ∀ size, Advances size p)
    (hp : Moves k n p p' Eq) (hf : ∀ m < n, ∀ x, Moves k m (f x) (f' x) S) :
    Moves k n (p >>= f) (p' >>= f') S :=
  hp.after hadvances fun m hm x _ h => h ▸ hf m hm x

theorem map {f f' : α → β} (hp : Moves k n p p' fun x y => S (f x) (f' y)) :
    Moves k n (f <$> p) (f' <$> p') S := by
  intro c hc
  have h := hp c hc
  simp only [Functor.map]
  generalize p c = r, p' (c.moved k) = r' at h ⊢
  cases h with
  | done hx hle hsize => exact .done hx hle hsize
  | fail => exact .fail

/-! ### Choices -/

theorem orElse (hp : Moves k n p p' R) (hq : Moves k n q q' R) :
    Moves k n (orElse p q) (orElse p' q') R := by
  intro c hc
  have h := hp c hc
  have h' := hq c hc
  simp only [Parser.orElse]
  generalize p c = r, p' (c.moved k) = r' at h ⊢
  cases h with
  | done hx hle hsize => exact .done hx hle hsize
  | fail =>
    generalize q c = r, q' (c.moved k) = r' at h' ⊢
    cases h' with
    | done hx hle hsize => exact .done hx hle hsize
    | fail => exact .fail

theorem firstOfAfter {others others' : List (Parser α)}
    (h : List.Forall₂ (Moves k n · · R) others others') (fault fault' : Fault) :
    Moves k n (firstOfAfter fault others) (firstOfAfter fault' others') R := by
  induction h generalizing fault fault' with
  | nil => exact fun _ _ => .fail
  | @cons p p' others others' hp _ ih =>
    intro c hc
    have h := hp c hc
    simp only [Parser.firstOfAfter]
    generalize p c = r, p' (c.moved k) = r' at h ⊢
    cases h with
    | done hx hle hsize => exact .done hx hle hsize
    | fail => exact ih _ _ c hc

theorem firstOf {others others' : List (Parser α)} (hp : Moves k n p p' R)
    (h : List.Forall₂ (Moves k n · · R) others others') :
    Moves k n (firstOf p others) (firstOf p' others') R := by
  intro c hc
  have hfirst := hp c hc
  simp only [Parser.firstOf]
  generalize p c = r, p' (c.moved k) = r' at hfirst ⊢
  cases hfirst with
  | done hx hle hsize => exact .done hx hle hsize
  | fail => exact firstOfAfter h _ _ c hc

theorem optional (hp : Moves k n p p' R) :
    Moves k n (optional p) (optional p') (Option.Rel R) := by
  intro c hc
  have h := hp c hc
  simp only [Parser.optional]
  generalize p c = r, p' (c.moved k) = r' at h ⊢
  cases h with
  | done hx hle hsize => exact .done (.some hx) hle hsize
  | fail => exact .done .none (Nat.le_refl _) rfl

/-! ### Repetitions -/

theorem manyFrom (hp : Moves k n p p' R) (fuel : List Char) {read read' : List α}
    (hread : List.Forall₂ R read read') (c : Cursor) (hc : c.Within n) (alt alt' : Option Fault) :
    Reply.Agrees k c (List.Forall₂ R) (manyFrom p fuel read c alt)
      (manyFrom p' fuel read' (c.moved k) alt') := by
  have h := hp c hc
  rw [Parser.manyFrom.eq_def, Parser.manyFrom.eq_def p']
  dsimp only
  generalize p c = r, p' (c.moved k) = r' at h ⊢
  cases h with
  | fail => exact .done (List.rel_reverse hread) (Nat.le_refl _) rfl
  | done hx hle hsize =>
    have hread := List.Forall₂.cons hx hread
    -- both runs have the same text left, so they run out of fuel together
    cases fuel with
    | nil => exact .done (List.rel_reverse hread) hle hsize
    | cons _ fuel => exact (hp.manyFrom fuel hread _ (hc.of_le hle hsize) _ _).before hle hsize

theorem many (hp : Moves k n p p' R) : Moves k n (many p) (many p') (List.Forall₂ R) :=
  fun c hc => hp.manyFrom c.rest .nil c hc none none

theorem many1 (hp : Moves k n p p' R) : Moves k n (many1 p) (many1 p') (List.Forall₂ R) := by
  intro c hc
  have h := hp c hc
  simp only [Parser.many1]
  generalize p c = r, p' (c.moved k) = r' at h ⊢
  cases h with
  | done hx hle hsize =>
    exact (hp.manyFrom _ (.cons hx .nil) _ (hc.of_le hle hsize) _ _).before hle hsize
  | fail => exact .fail

/-- What a repetition has read is put together in the same way. -/
theorem fold_many {f f' : β → α → β} {x y : β} (hp : Moves k n p p' R) (hx : S x y)
    (hf : Relator.LiftFun S (Relator.LiftFun R S) f f') :
    Moves k n (do let as ← Parser.many p; Pure.pure (as.foldl f x))
      (do let bs ← Parser.many p'; Pure.pure (bs.foldl f' y)) S :=
  hp.many.bind fun _ _ has => pure (List.rel_foldl hf hx has)

variable {separator : Parser Unit} {last : LastSeparator}

theorem itemsFrom (hp : Moves k n p p' R) (hsep : Moves k n separator separator Eq)
    (fuel : List Char) {read read' : List α} (hread : List.Forall₂ R read read') (c : Cursor)
    (hc : c.Within n) (alt alt' : Option Fault) :
    ItemsAgree k c R (itemsFrom p separator fuel read c alt)
      (itemsFrom p' separator fuel read' (c.moved k) alt') := by
  have hs := hsep c hc
  rw [Parser.itemsFrom.eq_def, Parser.itemsFrom.eq_def p']
  dsimp only
  generalize separator c = r, separator (c.moved k) = r' at hs ⊢
  cases hs with
  | fail => exact .intro (List.rel_reverse hread) (Nat.le_refl _) rfl
  | @done _ _ d _ _ _ hle hsize =>
    have hd := hc.of_le hle hsize
    have hx := hp d hd
    dsimp only
    generalize p d = r, p' (d.moved k) = r' at hx ⊢
    cases hx with
    | fail => exact .intro (List.rel_reverse hread) (Nat.le_refl _) rfl
    | done hx hle' hsize' =>
      have hread := List.Forall₂.cons hx hread
      have hle := hle'.trans hle
      have hsize := hsize'.trans hsize
      cases fuel with
      | nil => exact .intro (List.rel_reverse hread) hle hsize
      | cons _ fuel =>
        exact (hp.itemsFrom hsep fuel hread _ (hc.of_le hle hsize) _ _).before hle hsize

theorem separated1 (hp : Moves k n p p' R) (hsep : Moves k n separator separator Eq) :
    Moves k n (separated1 p separator last) (separated1 p' separator last)
      (List.Forall₂ R) := by
  intro c hc
  have hx := hp c hc
  simp only [Parser.separated1]
  generalize p c = r, p' (c.moved k) = r' at hx ⊢
  cases hx with
  | fail => exact .fail
  | @done _ _ d alt alt' hx hle hsize =>
    have hd := hc.of_le hle hsize
    have hitems := hp.itemsFrom hsep d.rest (.cons hx .nil) d hd alt alt'
    dsimp only [Cursor.moved] at hitems ⊢
    generalize Parser.itemsFrom p separator _ _ d alt = r, Parser.itemsFrom p' _ _ _ _ alt' = r'
      at hitems ⊢
    cases hitems with
    | @intro _ _ d' _ _ hitems hle' hsize' =>
      have hs := hsep d' (hd.of_le hle' hsize')
      cases last with
      | refused => exact (Reply.Agrees.done hitems hle' hsize').before hle hsize
      | allowed =>
        dsimp only
        generalize separator d' = r, separator (d'.moved k) = r' at hs ⊢
        refine Reply.Agrees.before ?_ (hle'.trans hle) (hsize'.trans hsize)
        cases hs with
        | fail => exact .done hitems (Nat.le_refl _) rfl
        | done _ hle hsize => exact .done hitems hle hsize

theorem separated (hp : Moves k n p p' R) (hsep : Moves k n separator separator Eq) :
    Moves k n (separated p separator last) (separated p' separator last) (List.Forall₂ R) := by
  intro c hc
  have h : Reply.Agrees k c _ (Parser.separated1 p separator last c) _ := hp.separated1 hsep c hc
  simp only [Parser.separated]
  generalize Parser.separated1 p separator last c = r,
    Parser.separated1 p' separator last (c.moved k) = r' at h ⊢
  cases h with
  | done hx hle hsize => exact .done hx hle hsize
  | fail => exact .done .nil (Nat.le_refl _) rfl

theorem skipFrom {q : Parser Unit} (hq : Moves k n q q Eq) (rest : List Char) (pos : Nat)
    (hc : Cursor.Within n ⟨pos, rest⟩) (alt alt' : Option Fault) :
    Reply.Agrees k ⟨pos, rest⟩ Eq (skipFrom q rest pos alt) (skipFrom q rest (pos + k) alt') := by
  induction rest generalizing pos alt alt' with
  | nil =>
    have h := hq _ hc
    simp only [Parser.skipFrom, Cursor.moved] at h ⊢
    generalize q ⟨pos, []⟩ = r, q ⟨pos + k, []⟩ = r' at h ⊢
    cases h with
    | done _ hle hsize => exact .done rfl hle hsize
    | fail => exact .fail
  | cons x rest ih =>
    have h := hq _ hc
    simp only [Parser.skipFrom, Cursor.moved] at h ⊢
    generalize q ⟨pos, x :: rest⟩ = r, q ⟨pos + k, x :: rest⟩ = r' at h ⊢
    cases h with
    | done _ hle hsize => exact .done rfl hle hsize
    | fail =>
      have hle : rest.length ≤ (x :: rest).length := Nat.le_succ _
      have hsize := size_cons pos x rest
      rw [Nat.add_right_comm]
      exact (ih (pos + 1) (hc.of_le hle hsize) _ _).before hle hsize

theorem skipThrough {q : Parser Unit} (hq : Moves k n q q Eq) :
    Moves k n (skipThrough q) (skipThrough q) Eq :=
  fun c hc => hq.skipFrom c.rest c.pos hc none none

/-! ### Spans and conditions -/

/-- The span of what was read, or of the next character, moves; it was written. -/
theorem spanned (hp : Moves k n p p' R) :
    Moves k n (spanned p) (spanned p') fun x y =>
      R x.1 y.1 ∧ 0 < x.2.stop ∧ y.2 = x.2.moved k := by
  intro c hc
  have h := hp c hc
  simp only [Parser.spanned]
  generalize p c = r, p' (c.moved k) = r' at h ⊢
  cases h with
  | fail => exact .fail
  | @done _ _ d _ _ hx hle hsize =>
    refine .done ⟨hx, hc.stop_pos d, ?_⟩ hle hsize
    rw [Cursor.spanTo_moved, Span.moved_of_stop (hc.stop_pos d)]

theorem spanned_bind {f f' : α × Span → Parser β}
    (hp : Moves k n p p' fun x y => ∀ span, 0 < span.stop →
      Moves k n (f (x, span)) (f' (y, span.moved k)) S) :
    Moves k n (Parser.spanned p >>= f) (Parser.spanned p' >>= f') S :=
  hp.spanned.bind fun ⟨_, span⟩ ⟨_, _⟩ ⟨h, hstop, heq⟩ => by
    obtain rfl : _ = span.moved k := heq
    exact h span hstop

theorem spanned_same {f f' : α × Span → Parser β} (hp : Moves k n p p' Eq)
    (hf : ∀ x span, 0 < span.stop → Moves k n (f (x, span)) (f' (x, span.moved k)) S) :
    Moves k n (Parser.spanned p >>= f) (Parser.spanned p' >>= f') S :=
  spanned_bind (hp.mono fun x _ h span hspan => h ▸ hf x span hspan)

/-- What is accepted depends on the value alone. -/
theorem accepted (hp : Moves k n p p' Eq) (judge : α → Except (Option Refusal) β) :
    Moves k n (accepted p judge) (accepted p' judge) Eq := by
  intro c hc
  have h := hp c hc
  simp only [Parser.accepted]
  generalize p c = r, p' (c.moved k) = r' at h ⊢
  cases h with
  | fail => exact .fail
  | @done x _ _ _ _ hx hle hsize =>
    subst hx
    dsimp only
    cases judge x with
    | ok => exact .done rfl hle hsize
    | error => exact .fail

/-! ### Lists and the same values -/

theorem mapped {f : α → α} {p p' : Parser (List α)}
    (h : Moves k n p p' (List.Forall₂ fun x y => y = f x)) :
    Moves k n p p' fun xs ys => ys = xs.map f :=
  h.mono fun _ _ h => eq_map_of_forall₂ h fun _ _ h => h

theorem optional_same (h : Moves k n p p' Eq) :
    Moves k n (Parser.optional p) (Parser.optional p') Eq :=
  h.optional.mono fun _ _ h => by
    cases h with
    | some h => rw [h]
    | none => rfl

theorem many_same (h : Moves k n p p' Eq) : Moves k n (Parser.many p) (Parser.many p') Eq :=
  h.many.mono fun _ _ h => List.forall₂_eq_eq_eq ▸ h

theorem many1_same (h : Moves k n p p' Eq) : Moves k n (Parser.many1 p) (Parser.many1 p') Eq :=
  h.many1.mono fun _ _ h => List.forall₂_eq_eq_eq ▸ h

theorem pure_same (x : α) : Moves k n (Pure.pure x) (Pure.pure x) Eq := pure rfl

end Moves

/-! ### Words, signs and literals -/

section

variable {p p' : Parser α} {R : α → α → Prop}

theorem moves_newline : Moves k n newline newline Eq :=
  .orElse ((moves_exactly _).optional_same.bind_same fun _ => moves_exactly _)
    ((moves_satisfy endsLine).bind_same fun _ => .pure_same ())

theorem moves_blanks : Moves k n blanks blanks Eq := by
  refine (Moves.many_same (.orElse (.orElse ?_ ?_) ?_)).bind_same fun _ => .pure_same ()
  · exact (moves_satisfy isBlank).bind_same fun _ => .pure_same ()
  · exact (moves_exactly _).bind_same fun _ => .skipThrough (moves_newline.orElse moves_endOfInput)
  · exact (moves_exactly _).bind_same fun _ => .skipThrough (moves_exactly _)

theorem Moves.token (hp : Moves k n p p' R) : Moves k n (token p) (token p') R :=
  moves_blanks.bind_same fun _ => hp.bind fun _ _ h => moves_blanks.bind_same fun _ => .pure h

theorem moves_symbol (s : String) : Moves k n (symbol s) (symbol s) Eq := (moves_exactly _).token

theorem moves_word : Moves k n word word Eq :=
  (moves_satisfy isNameStart).bind_same fun _ =>
    (moves_satisfy isNamePart).many_same.bind_same fun _ => .pure_same _

theorem moves_keyword (w : String) : Moves k n (keyword w) (keyword w) Eq :=
  (moves_word.accepted _).token

theorem moves_identifier : Moves k n identifier identifier Eq := (moves_word.accepted _).token

theorem moves_number : Moves k n number number Eq := by
  have hinteger : Moves k n integerDigits integerDigits Eq :=
    .orElse
      ((moves_satisfy _).bind_same fun _ => (moves_satisfy _).many_same.bind_same fun _ =>
        .pure_same _)
      ((moves_exactly _).bind_same fun _ => .pure_same _)
  have hfraction : Moves k n (do exactly ['.']; many1 (satisfy Char.isDigit))
      (do exactly ['.']; many1 (satisfy Char.isDigit)) Eq :=
    (moves_exactly _).bind_same fun _ => (moves_satisfy _).many1_same
  exact Moves.accepted (hinteger.bind_same fun _ => hfraction.optional_same.bind_same fun _ =>
    .pure_same _) _

theorem moves_escape : Moves k n escape escape Eq := by
  have hchar (w : List Char) (c : Char) : Moves k n (do exactly w; pure c)
      (do exactly w; pure c) Eq := (moves_exactly w).bind_same fun _ => .pure_same c
  exact (moves_exactly _).bind_same fun _ => (hchar _ _).firstOf (.cons (hchar _ _)
    (.cons (hchar _ _) (.cons (hchar _ _) (.cons (hchar _ _) (.cons (hchar _ _)
      (.cons (hchar _ _) .nil))))))

theorem moves_quoted : Moves k n quoted quoted Eq :=
  (moves_exactly _).bind_same fun _ =>
    ((moves_satisfy _).orElse moves_escape).many_same.bind_same fun _ =>
      (moves_exactly _).bind_same fun _ => .pure_same _

theorem moves_pattern : Moves k n pattern pattern Eq := by
  refine (moves_exactly _).bind_same fun _ =>
    (Moves.many_same (.orElse ?_ (moves_satisfy _))).bind_same fun _ =>
      (moves_exactly _).bind_same fun _ => .pure_same _
  exact (moves_exactly _).bind_same fun _ => .pure_same _

end

/-! ### Behind a sign or a word -/

namespace Moves

variable {p p' : Parser α} {R : α → α → Prop}

theorem behind_symbol {s : String} (hs : s.isEmpty = false) (h : ∀ m < n, Moves k m p p' R) :
    Moves k n (do symbol s; p) (do symbol s; p') R :=
  (moves_symbol s).after_same (fun _ => advances_symbol s hs) fun m hm _ => h m hm

theorem behind_keyword (w : String) (h : ∀ m < n, Moves k m p p' R) :
    Moves k n (do keyword w; p) (do keyword w; p') R :=
  (moves_keyword w).after_same (fun _ => advances_keyword w) fun m hm _ => h m hm

/-- A sign or a word that gives a value. -/
theorem symbol_pure (s : String) (x : α) :
    Moves k n (do symbol s; Pure.pure x) (do symbol s; Pure.pure x) Eq :=
  (moves_symbol s).bind_same fun _ => pure_same x

theorem keyword_pure (w : String) (x : α) :
    Moves k n (do keyword w; Pure.pure x) (do keyword w; Pure.pure x) Eq :=
  (moves_keyword w).bind_same fun _ => pure_same x

theorem between {opening closing : String} (hs : opening.isEmpty = false)
    (h : ∀ m < n, Moves k m p p' R) :
    Moves k n (between opening p closing) (between opening p' closing) R :=
  behind_symbol hs fun m hm => (h m hm).bind fun _ _ h =>
    (moves_symbol closing).bind_same fun _ => pure h

end Moves

end Grammar

end ScriptOutline
