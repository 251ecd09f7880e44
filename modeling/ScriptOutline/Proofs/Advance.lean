/-
ScriptOutline/Proofs/Advance.lean

Where a parser ends up when it succeeds, whatever text it is given.  `Leads size p start holds`
says that `p`, started at a position of a source of `size` characters, goes forward and never
leaves the source, and that `holds` is true of the value and of the position behind it.  The
rules are those of a program logic in which the position is the state: the rule for `do` hands
the position after the first parser on to the second one (`Leads.bind`), a repetition needs an
invariant (`Leads.many`), and a span is that of the characters read if there are any
(`Leads.spanned_bind`).

What most parsers are about is a relation between the start, the value and the end.
`Places size p stands` says that the parser establishes it from everywhere; where blanks or
further items may surround what was read, the relation has to survive a wider stretch
(`Widens`).
-/
import Mathlib.Data.List.Basic
import Mathlib.Order.Nat
import ScriptOutline.Grammar.Type
import ScriptOutline.Proofs.Answer

namespace ScriptOutline.Grammar

open ScriptOutline.Grammar.Parser

variable {α β : Type}

/-! ### The judgment -/

/-- Started at `start` in a source of `size` characters, the parser goes forward, and only to
values and positions of which `holds` is true. -/
def Leads (size : Nat) (p : Parser α) (start : Nat) (holds : α → Nat → Prop) : Prop :=
  ∀ rest : List Char, start + rest.length = size → ∀ value c alt,
    p ⟨start, rest⟩ = .done value c alt →
      start ≤ c.pos ∧ c.pos + c.rest.length = size ∧ holds value c.pos

/-- Started anywhere, the parser puts its value in relation to where it started and ended. -/
def Places (size : Nat) (p : Parser α) (stands : Nat → α → Nat → Prop) : Prop :=
  ∀ start, Leads size p start (stands start)

/-- The parser reads at least one character. -/
def Advances (size : Nat) (p : Parser α) : Prop := Places size p fun start _ stop => start < stop

/-- What stands in a stretch of the source stands in every wider one. -/
def Widens (stands : Nat → α → Nat → Prop) : Prop :=
  ∀ ⦃start start' : Nat⦄ ⦃x : α⦄ ⦃stop stop' : Nat⦄, start' ≤ start → stop ≤ stop' →
    stands start x stop → stands start' x stop'

theorem widens_all {stands : Nat → α → Nat → Prop} (h : Widens stands) :
    Widens fun start (xs : List α) stop => ∀ x ∈ xs, stands start x stop :=
  fun _ _ _ _ _ hstart hstop hxs x hx => h hstart hstop (hxs x hx)

theorem widens_lt : Widens fun (start : Nat) (_ : α) (stop : Nat) => start < stop := by
  intro start start' _ stop stop' hstart hstop h
  omega

theorem widens_true : Widens fun (_ : Nat) (_ : α) (_ : Nat) => True :=
  fun _ _ _ _ _ _ _ _ => trivial

namespace Leads

variable {size start : Nat} {p q : Parser α} {holds : α → Nat → Prop}
  {after : β → Nat → Prop} {stands : Nat → α → Nat → Prop}

theorem mono {holds' : α → Nat → Prop} (h : Leads size p start holds)
    (himp : ∀ x pos, start ≤ pos → pos ≤ size → holds x pos → holds' x pos) :
    Leads size p start holds' := by
  intro rest hrest x c alt hp
  obtain ⟨hle, hsize, hx⟩ := h rest hrest x c alt hp
  exact ⟨hle, hsize, himp x c.pos hle (by omega) hx⟩

/-- What the parser leads to, read only for how far it goes. -/
theorem forward (h : Leads size p start holds) : Leads size p start fun _ _ => True :=
  h.mono fun _ _ _ _ _ => trivial

theorem fail {fault : Cursor → Fault} : Leads size (fun c => .fail (fault c)) start holds :=
  fun _ _ _ _ _ h => nomatch h

/-- A parser that succeeds on the way, behind parsers that started at `start`. -/
theorem onwards {c c' : Cursor} {x : α} {alt : Option Fault} (h : Leads size p c.pos holds)
    (hle : start ≤ c.pos) (hsize : c.pos + c.rest.length = size) (hx : p c = .done x c' alt) :
    start ≤ c'.pos ∧ c'.pos + c'.rest.length = size ∧ holds x c'.pos := by
  obtain ⟨hle', hsize', hholds⟩ := h c.rest hsize x c' alt hx
  exact ⟨hle.trans hle', hsize', hholds⟩

/-! ### Sequences -/

theorem pure {x : α} (hx : holds x start) : Leads size (pure x) start holds := by
  intro rest hrest y c alt h
  obtain ⟨rfl, rfl⟩ := done_of_pure h
  exact ⟨Nat.le_refl _, hrest, hx⟩

theorem bind {f : α → Parser β} (hp : Leads size p start holds)
    (hf : ∀ x pos, start ≤ pos → holds x pos → Leads size (f x) pos after) :
    Leads size (p >>= f) start after := by
  intro rest hrest y c alt h
  obtain ⟨x, c₁, alt₁, alt₂, hx, hy⟩ := done_of_bind h
  obtain ⟨hle, hsize, hholds⟩ := hp rest hrest x c₁ alt₁ hx
  exact (hf x c₁.pos hle hholds).onwards hle hsize hy

theorem map {f : α → β} (hp : Leads size p start fun x pos => after (f x) pos) :
    Leads size (f <$> p) start after := by
  intro rest hrest y c alt h
  obtain ⟨x, hx, rfl⟩ := done_of_map h
  exact hp rest hrest x c alt hx

/-! ### Choices -/

theorem orElse (hp : Leads size p start holds) (hq : Leads size q start holds) :
    Leads size (Parser.orElse p q) start holds := by
  intro rest hrest x c alt h
  rcases done_of_orElse h with h | h
  · exact hp rest hrest x c alt h
  · exact hq rest hrest x c alt h

theorem firstOf {others : List (Parser α)} (hp : Leads size p start holds)
    (hothers : ∀ q ∈ others, Leads size q start holds) :
    Leads size (Parser.firstOf p others) start holds := by
  intro rest hrest x c alt h
  have hall : ∀ r ∈ p :: others, Leads size r start holds := List.forall_mem_cons.mpr ⟨hp, hothers⟩
  obtain ⟨r, hr, hdone⟩ := done_of_firstOf h
  exact hall r hr rest hrest x c alt hdone

theorem optional {holds : Option α → Nat → Prop}
    (hp : Leads size p start fun x pos => holds (some x) pos) (hnone : holds none start) :
    Leads size (Parser.optional p) start holds := by
  intro rest hrest x c alt h
  rcases done_of_optional h with ⟨y, rfl, hy⟩ | ⟨rfl, rfl⟩
  · exact hp rest hrest y c alt hy
  · exact ⟨Nat.le_refl _, hrest, hnone⟩

/-! ### Repetitions -/

section Repetition

variable {inv : List α → Nat → Prop}

theorem many (hnil : inv [] start)
    (hstep : ∀ xs pos, inv xs pos → Leads size p pos fun x pos' => inv (xs ++ [x]) pos') :
    Leads size (Parser.many p) start inv := by
  intro rest hrest values c alt h
  refine many_inv (P := fun xs c => start ≤ c.pos ∧ c.pos + c.rest.length = size ∧ inv xs c.pos)
    ?_ ⟨Nat.le_refl _, hrest, hnil⟩ h
  rintro xs c₁ x c₂ alt₁ ⟨hle, hsize, hinv⟩ hx
  exact (hstep xs c₁.pos hinv).onwards hle hsize hx

theorem many1 (hp : Leads size p start fun x pos => inv [x] pos)
    (hstep : ∀ xs pos, inv xs pos → Leads size p pos fun x pos' => inv (xs ++ [x]) pos') :
    Leads size (Parser.many1 p) start inv := by
  intro rest hrest values c alt h
  refine many1_inv (P := fun xs c => start ≤ c.pos ∧ c.pos + c.rest.length = size ∧ inv xs c.pos)
    ?_ (hp rest hrest) h
  rintro xs c₁ x c₂ alt₁ ⟨hle, hsize, hinv⟩ hx
  exact (hstep xs c₁.pos hinv).onwards hle hsize hx

variable {separator : Parser Unit}

/-- Items of a list keep an invariant that no separator behind them disturbs. -/
theorem separated1 {last : LastSeparator} (hsep : Places size separator fun _ _ _ => True)
    (hwide : ∀ xs pos pos', inv xs pos → pos ≤ pos' → inv xs pos')
    (hp : Leads size p start fun x pos => inv [x] pos)
    (hstep : ∀ xs pos, inv xs pos → Leads size p pos fun x pos' => inv (xs ++ [x]) pos') :
    Leads size (Parser.separated1 p separator last) start inv := by
  intro rest hrest values c alt h
  refine separated1_inv
    (P := fun xs c => start ≤ c.pos ∧ c.pos + c.rest.length = size ∧ inv xs c.pos) ?_ ?_
    (hp rest hrest) h
  · rintro xs c₁ u c₂ alt₁ x c₃ alt₂ ⟨hle, hsize, hinv⟩ hu hx
    obtain ⟨hle₂, hsize₂, -⟩ := hsep c₁.pos c₁.rest hsize u c₂ alt₁ hu
    exact (hstep xs c₂.pos (hwide xs c₁.pos c₂.pos hinv hle₂)).onwards (hle.trans hle₂) hsize₂ hx
  · rintro xs c₁ u c₂ alt₁ ⟨hle, hsize, hinv⟩ hu
    obtain ⟨hle₂, hsize₂, -⟩ := hsep c₁.pos c₁.rest hsize u c₂ alt₁ hu
    exact ⟨hle.trans hle₂, hsize₂, hwide xs c₁.pos c₂.pos hinv hle₂⟩

theorem separated {last : LastSeparator} (hsep : Places size separator fun _ _ _ => True)
    (hwide : ∀ xs pos pos', inv xs pos → pos ≤ pos' → inv xs pos') (hnil : inv [] start)
    (hstep : ∀ xs pos, inv xs pos → Leads size p pos fun x pos' => inv (xs ++ [x]) pos') :
    Leads size (Parser.separated p separator last) start inv := by
  intro rest hrest values c alt h
  rcases done_of_separated h with h | ⟨rfl, rfl⟩
  · exact separated1 hsep hwide (hstep [] start hnil) hstep rest hrest values c alt h
  · exact ⟨Nat.le_refl _, hrest, hnil⟩

end Repetition

/-! ### Spans, conditions and characters -/

/-- The span of what was read goes up to the position behind it.  A parser that read nothing
spans the next character. -/
theorem spanned (hp : Leads size p start holds) :
    Leads size (Parser.spanned p) start fun x pos =>
      holds x.1 pos ∧ (start < size → x.2 = ⟨start, max pos (start + 1)⟩) := by
  intro rest hrest x c alt h
  obtain ⟨hx, hspan⟩ := done_of_spanned h
  obtain ⟨hle, hsize, hholds⟩ := hp rest hrest x.1 c alt hx
  refine ⟨hle, hsize, hholds, fun hlt => ?_⟩
  have hne : rest ≠ [] := by
    rintro rfl
    simp at hrest
    omega
  simp [hspan, Cursor.spanTo, hne]

/-- A parser that read something, with its span, before another parser. -/
theorem spanned_bind {f : α × Span → Parser β}
    (hp : Leads size p start fun x pos =>
      start < pos ∧ Leads size (f (x, ⟨start, pos⟩)) pos after) :
    Leads size (Parser.spanned p >>= f) start after := by
  have hspan := hp.mono fun x pos _ hsize h => And.intro hsize h
  refine (spanned hspan).bind ?_
  rintro ⟨x, span⟩ pos - ⟨⟨hsize, hlt, hf⟩, hspan⟩
  have hstop : max pos (start + 1) = pos := by omega
  have hspan : span = ⟨start, max pos (start + 1)⟩ := hspan (hlt.trans_le hsize)
  rw [hspan, hstop]
  exact hf

theorem accepted {judge : α → Except (Option Refusal) β}
    (hp : Leads size p start fun x pos => ∀ y, judge x = .ok y → after y pos) :
    Leads size (Parser.accepted p judge) start after := by
  intro rest hrest y c alt h
  obtain ⟨x, hx, hjudged⟩ := done_of_accepted h
  obtain ⟨hle, hsize, hafter⟩ := hp rest hrest x c alt hx
  exact ⟨hle, hsize, hafter y hjudged⟩

end Leads

section Characters

variable {size : Nat} {p : Parser α} {stands : Nat → α → Nat → Prop}

theorem advances_satisfy (f : Char → Bool) : Advances size (satisfy f) := by
  intro start rest hrest x c alt h
  obtain ⟨-, rest', hrest', rfl⟩ := done_of_satisfy h
  obtain rfl : rest = x :: rest' := hrest'
  simp only [List.length_cons] at hrest
  exact ⟨by simp, by simp only; omega, by simp⟩

theorem places_exactly (w : List Char) :
    Places size (exactly w) fun start _ stop => stop = start + w.length := by
  induction w with
  | nil => exact fun start => Leads.pure rfl
  | cons d w ih =>
    intro start rest hrest x c alt h
    rw [exactly] at h
    cases rest with
    | nil => simp at h
    | cons e rest =>
      simp only [List.length_cons] at hrest
      simp only at h
      split at h
      · obtain ⟨hle, hsize, hstop⟩ := ih (start + 1) rest (by omega) x c alt h
        simp only [List.length_cons]
        exact ⟨by omega, hsize, by omega⟩
      · simp at h

theorem advances_exactly {w : List Char} (hw : w ≠ []) : Advances size (exactly w) := by
  intro start
  refine (places_exactly w start).mono fun _ pos _ _ hpos => ?_
  have := List.length_pos_iff.mpr hw
  omega

theorem places_endOfInput : Places size endOfInput fun start _ stop => stop = start := by
  intro start rest hrest x c alt h
  rw [endOfInput] at h
  cases rest with
  | nil =>
    obtain ⟨-, rfl, -⟩ : () = x ∧ ⟨start, []⟩ = c ∧ none = alt := by simpa using h
    exact ⟨Nat.le_refl _, hrest, rfl⟩
  | cons d rest => simp at h

theorem skipFrom_forward {p : Parser α} (hp : Places size p fun _ _ _ => True) :
    ∀ (rest : List Char) (pos : Nat) (alt : Option Fault) (c : Cursor) (alt' : Option Fault),
      pos + rest.length = size → skipFrom p rest pos alt = .done () c alt' →
        pos ≤ c.pos ∧ c.pos + c.rest.length = size := by
  intro rest
  induction rest with
  | nil =>
    intro pos alt c alt' hsize h
    rw [skipFrom] at h
    cases hx : p ⟨pos, []⟩ with
    | fail fault => simp [hx] at h
    | done x c' alt'' =>
      obtain ⟨rfl, -⟩ : c' = c ∧ _ := by simpa [hx] using h
      obtain ⟨hle, hsize', -⟩ := hp pos [] hsize x c' alt'' hx
      exact ⟨hle, hsize'⟩
  | cons d rest ih =>
    intro pos alt c alt' hsize h
    rw [skipFrom] at h
    cases hx : p ⟨pos, d :: rest⟩ with
    | fail fault =>
      simp only [List.length_cons] at hsize
      obtain ⟨hle, hsize'⟩ := ih (pos + 1) _ c alt' (by omega) (by simpa [hx] using h)
      exact ⟨by omega, hsize'⟩
    | done x c' alt'' =>
      obtain ⟨rfl, -⟩ : c' = c ∧ _ := by simpa [hx] using h
      obtain ⟨hle, hsize', -⟩ := hp pos (d :: rest) hsize x c' alt'' hx
      exact ⟨hle, hsize'⟩

theorem places_skipThrough {p : Parser α} (hp : Places size p fun _ _ _ => True) :
    Places size (skipThrough p) fun _ _ _ => True := by
  intro start rest hrest x c alt h
  obtain ⟨hle, hsize⟩ := skipFrom_forward hp rest start none c alt hrest h
  exact ⟨hle, hsize, trivial⟩

end Characters

/-! ### Values in their place -/

namespace Places

variable {size : Nat} {p q : Parser α} {stands : Nat → α → Nat → Prop}

theorem mono {stands' : Nat → α → Nat → Prop} (hp : Places size p stands)
    (himp : ∀ start x stop, start ≤ stop → stop ≤ size → stands start x stop →
      stands' start x stop) : Places size p stands' :=
  fun start => (hp start).mono (himp start)

theorem forward (hp : Places size p stands) : Places size p fun _ _ _ => True :=
  fun start => (hp start).forward

theorem pure_forward (x : α) : Places size (pure x) fun _ _ _ => True :=
  fun _ => Leads.pure trivial

theorem bind_forward {f : α → Parser β} (hp : Places size p fun _ _ _ => True)
    (hf : ∀ x, Places size (f x) fun _ _ _ => True) :
    Places size (p >>= f) fun _ _ _ => True := fun start =>
  (hp start).bind fun x pos _ _ => hf x pos

theorem map {f : β → α} {q : Parser β}
    (hq : Places size q fun start x stop => stands start (f x) stop) :
    Places size (f <$> q) stands := fun start => Leads.map (hq start)

theorem orElse (hp : Places size p stands) (hq : Places size q stands) :
    Places size (Parser.orElse p q) stands := fun start => (hp start).orElse (hq start)

theorem firstOf {others : List (Parser α)} (hp : Places size p stands)
    (hothers : others.Forall fun q => Places size q stands) :
    Places size (Parser.firstOf p others) stands := fun start =>
  (hp start).firstOf fun q hq => List.forall_iff_forall_mem.mp hothers q hq start

/-- What may be missing stands where it was read, if it is there. -/
theorem optional (hp : Places size p stands) :
    Places size (Parser.optional p) fun start x stop => ∀ y ∈ x, stands start y stop :=
  fun start => Leads.optional ((hp start).mono fun x pos _ _ hx y hy => by
    obtain rfl : x = y := by simpa using hy
    exact hx) (by simp)

/-- All values that were read so far stand between the start and the position. -/
def All (stands : Nat → α → Nat → Prop) (start : Nat) (xs : List α) (pos : Nat) : Prop :=
  start ≤ pos ∧ ∀ x ∈ xs, stands start x pos

theorem All.nil {start : Nat} : All stands start [] start := ⟨Nat.le_refl _, fun _ h => nomatch h⟩

theorem All.widen {start pos pos' : Nat} {xs : List α} (hwide : Widens stands)
    (h : All stands start xs pos) (hle : pos ≤ pos') : All stands start xs pos' :=
  ⟨h.1.trans hle, fun x hx => hwide (Nat.le_refl _) hle (h.2 x hx)⟩

/-- One more value. -/
theorem All.concat {start pos : Nat} {xs : List α} (hwide : Widens stands)
    (hp : Places size p stands) (h : All stands start xs pos) :
    Leads size p pos fun x pos' => All stands start (xs ++ [x]) pos' :=
  (hp pos).mono fun x pos' hpos _ hx => by
    obtain ⟨hle, hxs⟩ := h.widen hwide hpos
    simp only [All, List.forall_mem_append, List.forall_mem_singleton]
    exact ⟨hle, hxs, hwide h.1 (Nat.le_refl _) hx⟩

/-- All values of a repetition stand where it read. -/
theorem many (hwide : Widens stands) (hp : Places size p stands) :
    Places size (Parser.many p) fun start xs stop => ∀ x ∈ xs, stands start x stop := fun start =>
  have h : Leads size (Parser.many p) start (All stands start) :=
    Leads.many .nil fun _ _ hxs => hxs.concat hwide hp
  h.mono fun _ _ _ _ hxs => hxs.2

/-- All values of a repetition stand where it read. -/
theorem many1 (hwide : Widens stands) (hp : Places size p stands) :
    Places size (Parser.many1 p) fun start xs stop => ∀ x ∈ xs, stands start x stop := fun start =>
  have h : Leads size (Parser.many1 p) start (All stands start) :=
    Leads.many1 (All.nil.concat hwide hp) fun _ _ hxs => hxs.concat hwide hp
  h.mono fun _ _ _ _ hxs => hxs.2

variable {separator : Parser Unit} {last : LastSeparator}

/-- All items of a list stand where it was read. -/
theorem separated1 (hwide : Widens stands) (hsep : Places size separator fun _ _ _ => True)
    (hp : Places size p stands) :
    Places size (Parser.separated1 p separator last) fun start xs stop =>
      ∀ x ∈ xs, stands start x stop := fun start =>
  have h : Leads size (Parser.separated1 p separator last) start (All stands start) :=
    Leads.separated1 hsep (fun _ _ _ hxs hle => hxs.widen hwide hle)
      (All.nil.concat hwide hp) fun _ _ hxs => hxs.concat hwide hp
  h.mono fun _ _ _ _ hxs => hxs.2

/-- All items of a list stand where it was read. -/
theorem separated (hwide : Widens stands) (hsep : Places size separator fun _ _ _ => True)
    (hp : Places size p stands) :
    Places size (Parser.separated p separator last) fun start xs stop =>
      ∀ x ∈ xs, stands start x stop := fun start =>
  have h : Leads size (Parser.separated p separator last) start (All stands start) :=
    Leads.separated hsep (fun _ _ _ hxs hle => hxs.widen hwide hle) .nil
      fun _ _ hxs => hxs.concat hwide hp
  h.mono fun _ _ _ _ hxs => hxs.2

end Places

/-- A parser that reads something may be followed by any other one. -/
theorem Advances.then {size : Nat} {p : Parser α} {f : α → Parser β} (hp : Advances size p)
    (hf : ∀ x, Places size (f x) fun _ _ _ => True) : Advances size (p >>= f) := fun start =>
  (hp start).bind fun x pos _ hlt => (hf x pos).mono fun _ _ hpos _ _ => hlt.trans_le hpos

namespace Advances

variable {size : Nat} {p q : Parser α}

theorem map (hp : Advances size p) (f : α → β) : Advances size (f <$> p) := fun start => by
  have h : Leads size p start fun _ stop => start < stop := hp start
  exact Leads.map h

theorem orElse (hp : Advances size p) (hq : Advances size q) :
    Advances size (Parser.orElse p q) := fun start => (hp start).orElse (hq start)

/-- What is read with its span takes all of it. -/
theorem spanned (hp : Advances size p) :
    Places size (Parser.spanned p) fun start x stop => start < stop ∧ x.2 = ⟨start, stop⟩ :=
  fun start => (Leads.spanned (hp start)).mono fun x stop _ hsize ⟨hlt, hspan⟩ =>
    ⟨hlt, by simpa [Nat.max_eq_left hlt] using hspan (hlt.trans_le hsize)⟩

theorem accepted {judge : α → Except (Option Refusal) β} (hp : Advances size p) :
    Advances size (Parser.accepted p judge) := fun start =>
  Leads.accepted ((hp start).mono fun _ _ _ _ hlt _ _ => hlt)

/-- A value behind something that takes at least one character. -/
theorem before {stands : Nat → β → Nat → Prop} {r : Parser β} (hp : Advances size p)
    (hwide : Widens stands) (hr : Places size r stands) :
    Places size (p >>= fun _ => r) fun start x stop => start < stop ∧ stands start x stop :=
  fun start => (hp start).bind fun _ pos hle hlt => (hr pos).mono fun _ _ hpos _ hx =>
    ⟨hlt.trans_le hpos, hwide hle (Nat.le_refl _) hx⟩

end Advances

/-- A fold over what a repetition read keeps a relation, if the value of each round is put
behind what was there. -/
theorem leads_fold_many {size : Nat} {p : Parser β} {f : α → β → α} {x : α} {origin start : Nat}
    {stands : Nat → α → Nat → Prop} {follows : Nat → β → Nat → Prop}
    (hp : Places size p follows) (hx : stands origin x start)
    (hf : ∀ x pos y stop, pos ≤ stop → stands origin x pos → follows pos y stop →
      stands origin (f x y) stop) :
    Leads size (do let ys ← many p; pure (ys.foldl f x)) start (stands origin) := by
  have hmany : Leads size (many p) start fun ys pos => stands origin (ys.foldl f x) pos := by
    refine Leads.many hx fun ys pos hys => (hp pos).mono fun y stop hle _ hy => ?_
    rw [List.foldl_append, List.foldl_cons, List.foldl_nil]
    exact hf _ pos y stop hle hys hy
  exact hmany.bind fun ys pos _ hys => Leads.pure hys

/-! ### Words, signs and literals -/

section Lexical

variable {size : Nat} {p : Parser α} {stands : Nat → α → Nat → Prop}

theorem places_newline : Places size newline fun _ _ _ => True := by
  intro start
  refine Leads.orElse ?_ ?_
  · have hreturn : Leads size (optional (exactly ['\r'])) start fun _ _ => True :=
      Leads.optional (places_exactly ['\r'] start).forward trivial
    exact hreturn.bind fun _ pos _ _ => (places_exactly ['\n'] pos).forward
  · exact (advances_satisfy endsLine start).bind fun _ _ _ _ => Leads.pure trivial

theorem places_blanks : Places size blanks fun _ _ _ => True := by
  intro start
  have hblank : Places size (do let _ ← satisfy isBlank; pure ()) fun _ _ _ => True :=
    fun start => (advances_satisfy isBlank start).bind fun _ _ _ _ => Leads.pure trivial
  have hline : Places size lineComment fun _ _ _ => True := fun start =>
    (places_exactly ['/', '/'] start).bind fun _ pos _ _ =>
      places_skipThrough (fun start => (places_newline start).orElse
        (places_endOfInput start).forward) pos
  have hblock : Places size blockComment fun _ _ _ => True := fun start =>
    (places_exactly ['/', '*'] start).bind fun _ pos _ _ =>
      places_skipThrough (places_exactly ['*', '/']).forward pos
  have hround : Places size (orElse (orElse (do let _ ← satisfy isBlank; pure ()) lineComment)
      blockComment) fun _ _ _ => True := fun start =>
    ((hblank start).orElse (hline start)).orElse (hblock start)
  exact (Places.many widens_true hround start).bind fun _ _ _ _ =>
    Leads.pure trivial

/-- What a token reads stands where the token stands, with the blanks around it. -/
theorem Places.token (hwide : Widens stands) (hp : Places size p stands) :
    Places size (Grammar.token p) stands := fun start =>
  (places_blanks start).bind fun _ pos hpos _ =>
    (hp pos).bind fun _ pos' _ hx =>
      (places_blanks pos').bind fun _ _ hpos' _ => Leads.pure (hwide hpos hpos' hx)

theorem advances_symbol (s : String) (hs : s.isEmpty = false) : Advances size (symbol s) :=
  Places.token widens_lt (advances_exactly (by simpa using hs))

theorem advances_word : Advances size word := fun start =>
  (advances_satisfy isNameStart start).bind fun _ pos _ hlt =>
    (Places.many widens_lt (advances_satisfy isNamePart) pos).bind fun _ _ hpos _ =>
      Leads.pure (hlt.trans_le hpos)

theorem advances_keyword (name : String) : Advances size (keyword name) :=
  Places.token widens_lt advances_word.accepted

theorem advances_identifier : Advances size identifier :=
  Places.token widens_lt advances_word.accepted

theorem advances_number : Advances size number := by
  refine Advances.accepted fun start => ?_
  have hinteger : Advances size integerDigits := fun start => by
    refine Leads.orElse ?_ ?_
    · exact (advances_satisfy _ start).bind fun _ pos _ hlt =>
        (Places.many widens_lt (advances_satisfy Char.isDigit) pos).bind fun _ _ hpos _ =>
          Leads.pure (hlt.trans_le hpos)
    · exact (advances_exactly (by simp) start).bind fun _ _ _ hlt => Leads.pure hlt
  have hfraction : Places size (do exactly ['.']; Parser.many1 (satisfy Char.isDigit))
      fun _ _ _ => True := fun start =>
    (places_exactly ['.'] start).bind fun _ pos _ _ =>
      (Places.many1 widens_lt (advances_satisfy Char.isDigit) pos).forward
  refine (hinteger start).bind fun _ pos _ hlt => ?_
  have hoptional : Leads size (optional (do exactly ['.']; Parser.many1 (satisfy Char.isDigit)))
      pos fun _ _ => True := Leads.optional (hfraction pos) trivial
  exact hoptional.bind fun _ _ hpos _ => Leads.pure (hlt.trans_le hpos)

theorem advances_escape : Advances size escape := by
  intro start
  refine (advances_exactly (by simp) start).bind fun _ pos _ hlt => ?_
  have hchar (w : List Char) (c : Char) :
      Leads size (do exactly w; pure c) pos fun _ stop => start < stop :=
    (places_exactly w pos).bind fun _ _ hpos _ => Leads.pure (hlt.trans_le hpos)
  exact Leads.firstOf (hchar _ _) (by simp [hchar])

/-- A text between two signs is read once its first sign is. -/
theorem advances_delimited {opening closing : List Char} {content : Parser Char}
    (hopening : opening ≠ []) (hcontent : Advances size content) :
    Advances size (do
      exactly opening
      let text ← many content
      exactly closing
      pure (String.ofList text)) := fun start =>
  (advances_exactly hopening start).bind fun _ pos _ hlt =>
    (Places.many widens_lt hcontent pos).bind fun _ pos' hpos _ =>
      (places_exactly closing pos').bind fun _ _ hpos' _ =>
        Leads.pure ((hlt.trans_le hpos).trans_le hpos')

theorem advances_quoted : Advances size quoted :=
  advances_delimited (by simp) fun start =>
    (advances_satisfy _ start).orElse (advances_escape start)

theorem advances_pattern : Advances size pattern := by
  have hslash : Advances size (do exactly ['\\', '/']; pure '/') := fun start =>
    (advances_exactly (by simp) start).bind fun _ _ _ hlt => Leads.pure hlt
  exact advances_delimited (by simp) fun start => (hslash start).orElse (advances_satisfy _ start)

/-- What stands between two signs. -/
theorem Places.between {opening closing : String} (hwide : Widens stands)
    (ho : Advances size (symbol opening)) (hc : Advances size (symbol closing))
    (hp : Places size p stands) :
    Places size (Grammar.between opening p closing) fun start x stop =>
      start < stop ∧ stands start x stop := fun start =>
  (ho start).bind fun _ pos hle hlt => (hp pos).bind fun _ stop hpos hx =>
    (hc stop).bind fun _ _ _ hlt' => Leads.pure
      ⟨hlt.trans (hpos.trans_lt hlt'), hwide hle hlt'.le hx⟩

end Lexical

end ScriptOutline.Grammar
