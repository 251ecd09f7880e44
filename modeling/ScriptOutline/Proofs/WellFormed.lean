/-
ScriptOutline/Proofs/WellFormed.lean

Rules that always come to an end.  A rule of the grammar is a parser over the notions that contain
one another (`Inner`), and it could fail to end in two ways: a round of a repetition may read
nothing, or the rule may ask for one of the notions where it was asked for itself.  The judgment
`WellFormed behind reads rule` excludes both by the form of the rule.  It has one constructor for
each combinator, and it keeps account of two things: whether something was read before the rule has
its turn, and whether the rule reads something itself.

Two facts follow by induction on the derivation.  A well-formed rule reads what it is said to read
(`WellFormed.places`), if the notions do.  And what it answers from a position on depends only on
what the notions answer behind that position (`WellFormed.alikeFrom`): two parsers are compared by
`AlikeFrom`, which asks for the same reply, with the same faults.

A repetition of something that reads at least one character in each round is not cut short by its
fuel (`rounds_of_many`).
-/
import Mathlib.Data.List.Forall2
import ScriptOutline.Proofs.Advance

namespace ScriptOutline.Grammar

open ScriptOutline.Grammar.Parser

variable {α β : Type}

/-! ### The judgment -/

/-- The rule asks for the notions only behind something that was read, whatever it repeats reads
something in each round, and if `reads` is true, then so does the rule.  Of what was read before
the rule has its turn, `behind` tells whether there is any. -/
inductive WellFormed : {α : Type} → Bool → Bool → (Inner → Parser α) → Prop
  | classType : WellFormed true true Inner.classType
  | unary : WellFormed true true Inner.unary
  | expression : WellFormed true true Inner.expression
  | statement : WellFormed true true Inner.statement
  | later {α : Type} {behind reads : Bool} {rule : Inner → Parser α} :
      WellFormed behind reads rule → WellFormed true reads rule
  | weaken {α : Type} {behind reads : Bool} {rule : Inner → Parser α} :
      WellFormed behind reads rule → WellFormed behind false rule
  | pure {α : Type} {behind : Bool} (x : α) : WellFormed behind false fun _ => pure x
  | satisfy {behind : Bool} (f : Char → Bool) : WellFormed behind true fun _ => satisfy f
  | exactly {behind : Bool} {w : List Char} :
      w ≠ [] → WellFormed behind true fun _ => exactly w
  | endOfInput {behind : Bool} : WellFormed behind false fun _ => endOfInput
  | bind {α β : Type} {behind reads reads' : Bool} {p : Inner → Parser α}
      {f : Inner → α → Parser β} : WellFormed behind reads' p →
      (∀ x, WellFormed behind reads fun g => f g x) → WellFormed behind reads fun g => p g >>= f g
  | after {α β : Type} {behind : Bool} {p : Inner → Parser α} {f : Inner → α → Parser β} :
      WellFormed behind true p → (∀ x, WellFormed true false fun g => f g x) →
      WellFormed behind true fun g => p g >>= f g
  | map {α β : Type} {behind reads : Bool} {p : Inner → Parser α} (f : α → β) :
      WellFormed behind reads p → WellFormed behind reads fun g => f <$> p g
  | orElse {α : Type} {behind reads : Bool} {p q : Inner → Parser α} :
      WellFormed behind reads p → WellFormed behind reads q →
      WellFormed behind reads fun g => orElse (p g) (q g)
  | firstOf {α : Type} {behind reads : Bool} {p : Inner → Parser α}
      {others : List (Inner → Parser α)} : WellFormed behind reads p →
      (∀ q ∈ others, WellFormed behind reads q) →
      WellFormed behind reads fun g => firstOf (p g) (others.map fun q => q g)
  | optional {α : Type} {behind : Bool} {p : Inner → Parser α} :
      WellFormed behind true p → WellFormed behind false fun g => optional (p g)
  | many {α : Type} {behind : Bool} {p : Inner → Parser α} :
      WellFormed behind true p → WellFormed behind false fun g => many (p g)
  | many1 {α : Type} {behind : Bool} {p : Inner → Parser α} :
      WellFormed behind true p → WellFormed behind true fun g => many1 (p g)
  | separated {α : Type} {behind : Bool} {p : Inner → Parser α} {separator : Parser Unit}
      {last : LastSeparator} : WellFormed behind true p →
      WellFormed behind true (fun _ => separator) →
      WellFormed behind false fun g => separated (p g) separator last
  | separated1 {α : Type} {behind : Bool} {p : Inner → Parser α} {separator : Parser Unit}
      {last : LastSeparator} : WellFormed behind true p →
      WellFormed behind true (fun _ => separator) →
      WellFormed behind true fun g => separated1 (p g) separator last
  | skipThrough {behind reads : Bool} {p : Inner → Parser Unit} :
      WellFormed behind reads p → WellFormed behind false fun g => skipThrough (p g)
  | spanned {α : Type} {behind reads : Bool} {p : Inner → Parser α} :
      WellFormed behind reads p → WellFormed behind reads fun g => spanned (p g)
  | accepted {α β : Type} {behind reads : Bool} {p : Inner → Parser α}
      (judge : α → Except (Option Refusal) β) :
      WellFormed behind reads p → WellFormed behind reads fun g => accepted (p g) judge

/-! ### Something is read -/

/-- The notions that contain one another read something. -/
structure Inner.Advancing (size : Nat) (g : Inner) : Prop where
  classType : Advances size g.classType
  unary : Advances size g.unary
  expression : Advances size g.expression
  statement : Advances size g.statement

/-- A well-formed rule goes forward, and reads something if it is said to. -/
theorem WellFormed.places {behind reads : Bool} {rule : Inner → Parser α}
    (h : WellFormed behind reads rule) {size : Nat} {g : Inner} (hg : g.Advancing size) :
    Places size (rule g) fun start _ stop => reads = true → start < stop := by
  induction h with
  | classType => exact hg.classType.mono fun _ _ _ _ _ hlt _ => hlt
  | unary => exact hg.unary.mono fun _ _ _ _ _ hlt _ => hlt
  | expression => exact hg.expression.mono fun _ _ _ _ _ hlt _ => hlt
  | statement => exact hg.statement.mono fun _ _ _ _ _ hlt _ => hlt
  | later _ ih => exact ih
  | weaken _ ih => exact ih.mono fun _ _ _ _ _ _ h => nomatch h
  | pure x => exact (Places.pure_forward x).mono fun _ _ _ _ _ _ h => nomatch h
  | satisfy f => exact (advances_satisfy f).mono fun _ _ _ _ _ hlt _ => hlt
  | exactly hw => exact (advances_exactly hw).mono fun _ _ _ _ _ hlt _ => hlt
  | endOfInput => exact places_endOfInput.mono fun _ _ _ _ _ _ h => nomatch h
  -- what follows reads something here, and in the next case what comes first does
  | bind _ _ ihp ihf =>
    exact fun start => (ihp start).bind fun x pos hle _ => (ihf x pos).mono
      fun _ _ _ _ hlt hreads => hle.trans_lt (hlt hreads)
  | after _ _ ihp ihf =>
    exact fun start => (ihp start).bind fun x pos _ hlt => (ihf x pos).mono
      fun _ _ hle _ _ _ => (hlt rfl).trans_le hle
  | map f _ ih => exact ih.map
  | orElse _ _ ihp ihq => exact ihp.orElse ihq
  | firstOf _ _ ihp ihq =>
    exact ihp.firstOf (List.forall_iff_forall_mem.mpr (List.forall_mem_map.mpr ihq))
  | optional _ ih => exact ih.optional.mono fun _ _ _ _ _ _ h => nomatch h
  | many _ ih => exact (ih.forward.many widens_true).mono fun _ _ _ _ _ _ h => nomatch h
  | many1 _ ih =>
    exact fun start => Leads.many1 (ih start) fun _ pos hlt => (ih pos).mono
      fun _ _ hle _ _ hreads => (hlt hreads).trans_le hle
  | separated _ _ ih ihsep =>
    exact (Places.separated widens_true ihsep.forward ih.forward).mono
      fun _ _ _ _ _ _ h => nomatch h
  | separated1 _ _ ih ihsep =>
    exact fun start => Leads.separated1 ihsep.forward
      (fun _ _ _ hlt hle hreads => (hlt hreads).trans_le hle) (ih start)
      fun _ pos hlt => (ih pos).mono fun _ _ hle _ _ hreads => (hlt hreads).trans_le hle
  | skipThrough _ ih =>
    exact (places_skipThrough ih.forward).mono fun _ _ _ _ _ _ h => nomatch h
  | spanned _ ih => exact fun start => (Leads.spanned (ih start)).mono fun _ _ _ _ h => h.1
  | accepted judge _ ih =>
    exact fun start => Leads.accepted ((ih start).mono fun _ _ _ _ h _ _ => h)

theorem WellFormed.advances {behind : Bool} {rule : Inner → Parser α}
    (h : WellFormed behind true rule) {size : Nat} {g : Inner} (hg : g.Advancing size) :
    Advances size (rule g) :=
  (h.places hg).mono fun _ _ _ _ _ hlt => hlt rfl

/-- A repetition whose rounds read something goes at least one position further in each round, and
it ends where a round fails. -/
theorem rounds_of_manyFrom {p : Parser α} (hp : ∀ size, Advances size p) (fuel : List Char)
    (read : List α) (c : Cursor) (alt : Option Fault) (xs : List α) (c' : Cursor)
    (alt' : Option Fault) (hfuel : c.rest.length ≤ fuel.length)
    (h : manyFrom p fuel read c alt = .done xs c' alt') :
    c.pos + xs.length ≤ c'.pos + read.length ∧ ∃ fault, p c' = .fail fault := by
  rw [manyFrom.eq_def] at h
  cases hx : p c with
  | fail fault =>
    obtain ⟨rfl, rfl, -⟩ : read.reverse = xs ∧ c = c' ∧ _ := by simpa [hx] using h
    exact ⟨by rw [List.length_reverse], fault, hx⟩
  | done x d alt₁ =>
    obtain ⟨-, hsize, hlt⟩ := hp _ c.pos c.rest rfl x d alt₁ hx
    -- a round reads something, so the fuel does not end before the text does
    have hshorter : d.rest.length < c.rest.length := by omega
    cases fuel with
    | nil => exact absurd (hshorter.trans_le hfuel) (Nat.not_lt_zero _)
    | cons y fuel =>
      obtain ⟨hrounds, hends⟩ := rounds_of_manyFrom hp fuel (x :: read) d _ xs c' alt'
        (Nat.le_of_lt_succ (hshorter.trans_le hfuel)) (by simpa [hx] using h)
      rw [List.length_cons] at hrounds
      exact ⟨by omega, hends⟩

theorem rounds_of_many {p : Parser α} (hp : ∀ size, Advances size p) {c c' : Cursor}
    {xs : List α} {alt : Option Fault} (h : many p c = .done xs c' alt) :
    c.pos + xs.length ≤ c'.pos ∧ ∃ fault, p c' = .fail fault :=
  rounds_of_manyFrom hp c.rest [] c none xs c' alt (Nat.le_refl _) h

/-! ### Replies that are alike -/

/-- From a position of a source of `size` characters on, the parsers give the same replies. -/
def AlikeFrom (size start : Nat) (p p' : Parser α) : Prop :=
  ∀ c : Cursor, start ≤ c.pos → c.pos + c.rest.length = size → p c = p' c

namespace AlikeFrom

variable {size start : Nat} {p p' q q' : Parser α}

theorem rfl : AlikeFrom size start p p := fun _ _ _ => Eq.refl _

theorem of_le {start' : Nat} (h : AlikeFrom size start p p') (hle : start ≤ start') :
    AlikeFrom size start' p p' := fun c hc => h c (hle.trans hc)

/-- What comes second is asked only from the positions on where the first parser ends. -/
theorem bind {f f' : α → Parser β} {next : Nat} (hp : AlikeFrom size start p p')
    (hnext : Places size p' fun pos _ stop => start ≤ pos → next ≤ stop)
    (hf : ∀ x, AlikeFrom size next (f x) (f' x)) : AlikeFrom size start (p >>= f) (p' >>= f') := by
  intro c hc hsize
  show Parser.bind p f c = Parser.bind p' f' c
  rw [Parser.bind, Parser.bind, hp c hc hsize]
  cases hx : p' c with
  | fail fault => simp only
  | done x d alt =>
    obtain ⟨-, hsize', hle⟩ := hnext c.pos c.rest hsize x d alt hx
    simp only [hf x d (hle hc) hsize']

theorem map {f : α → β} (h : AlikeFrom size start p p') :
    AlikeFrom size start (f <$> p) (f <$> p') := by
  intro c hc hsize
  simp only [Functor.map, h c hc hsize]

/-! #### Choices -/

theorem orElse (hp : AlikeFrom size start p p') (hq : AlikeFrom size start q q') :
    AlikeFrom size start (orElse p q) (orElse p' q') := by
  intro c hc hsize
  rw [Parser.orElse, Parser.orElse, hp c hc hsize, hq c hc hsize]

theorem firstOfAfter {others others' : List (Parser α)}
    (h : List.Forall₂ (AlikeFrom size start) others others') (fault : Fault) :
    AlikeFrom size start (firstOfAfter fault others) (firstOfAfter fault others') := by
  induction h generalizing fault with
  | nil => exact rfl
  | cons hq _ ih =>
    intro c hc hsize
    simp only [Parser.firstOfAfter, hq c hc hsize, ih _ c hc hsize]

theorem firstOf {others others' : List (Parser α)} (hp : AlikeFrom size start p p')
    (h : List.Forall₂ (AlikeFrom size start) others others') :
    AlikeFrom size start (firstOf p others) (firstOf p' others') := by
  intro c hc hsize
  simp only [Parser.firstOf, hp c hc hsize, firstOfAfter h _ c hc hsize]

theorem optional (h : AlikeFrom size start p p') :
    AlikeFrom size start (optional p) (optional p') := by
  intro c hc hsize
  rw [Parser.optional, Parser.optional, h c hc hsize]

/-! #### Repetitions -/

theorem manyFrom (h : AlikeFrom size start p p') (hforward : Places size p' fun _ _ _ => True)
    (fuel : List Char) (read : List α) (c : Cursor) (alt : Option Fault) (hc : start ≤ c.pos)
    (hsize : c.pos + c.rest.length = size) :
    manyFrom p fuel read c alt = manyFrom p' fuel read c alt := by
  rw [Parser.manyFrom.eq_def, Parser.manyFrom.eq_def p']
  dsimp only
  rw [h c hc hsize]
  cases hx : p' c with
  | fail fault => simp only
  | done x d alt' =>
    obtain ⟨hle, hsize', -⟩ := hforward c.pos c.rest hsize x d alt' hx
    cases fuel with
    | nil => simp only
    | cons _ fuel =>
      simp only [h.manyFrom hforward fuel (x :: read) d _ (hc.trans hle) hsize']

theorem many (h : AlikeFrom size start p p') (hforward : Places size p' fun _ _ _ => True) :
    AlikeFrom size start (many p) (many p') := fun c hc hsize =>
  h.manyFrom hforward c.rest [] c none hc hsize

theorem many1 (h : AlikeFrom size start p p') (hforward : Places size p' fun _ _ _ => True) :
    AlikeFrom size start (many1 p) (many1 p') := by
  intro c hc hsize
  rw [Parser.many1, Parser.many1, h c hc hsize]
  cases hx : p' c with
  | fail fault => simp only
  | done x d alt =>
    obtain ⟨hle, hsize', -⟩ := hforward c.pos c.rest hsize x d alt hx
    simp only [h.manyFrom hforward d.rest [x] d alt (hc.trans hle) hsize']

variable {separator : Parser Unit} {last : LastSeparator}

theorem itemsFrom (h : AlikeFrom size start p p') (hforward : Places size p' fun _ _ _ => True)
    (hsep : Places size separator fun _ _ _ => True) (fuel : List Char) (read : List α)
    (c : Cursor) (alt : Option Fault) (hc : start ≤ c.pos)
    (hsize : c.pos + c.rest.length = size) :
    itemsFrom p separator fuel read c alt = itemsFrom p' separator fuel read c alt := by
  rw [Parser.itemsFrom.eq_def, Parser.itemsFrom.eq_def p']
  dsimp only
  cases hs : separator c with
  | fail fault => simp only
  | done u d alt₁ =>
    obtain ⟨hle, hsize₁, -⟩ := hsep c.pos c.rest hsize u d alt₁ hs
    simp only [h d (hc.trans hle) hsize₁]
    cases hx : p' d with
    | fail fault => simp only
    | done x d₂ alt₂ =>
      obtain ⟨hle₂, hsize₂, -⟩ := hforward d.pos d.rest hsize₁ x d₂ alt₂ hx
      cases fuel with
      | nil => simp only
      | cons _ fuel =>
        simp only [h.itemsFrom hforward hsep fuel (x :: read) d₂ _
          (hc.trans (hle.trans hle₂)) hsize₂]

theorem separated1 (h : AlikeFrom size start p p') (hforward : Places size p' fun _ _ _ => True)
    (hsep : Places size separator fun _ _ _ => True) :
    AlikeFrom size start (separated1 p separator last) (separated1 p' separator last) := by
  intro c hc hsize
  rw [Parser.separated1, Parser.separated1, h c hc hsize]
  cases hx : p' c with
  | fail fault => simp only
  | done x d alt =>
    obtain ⟨hle, hsize', -⟩ := hforward c.pos c.rest hsize x d alt hx
    simp only [h.itemsFrom hforward hsep d.rest [x] d alt (hc.trans hle) hsize']

theorem separated (h : AlikeFrom size start p p') (hforward : Places size p' fun _ _ _ => True)
    (hsep : Places size separator fun _ _ _ => True) :
    AlikeFrom size start (separated p separator last) (separated p' separator last) := by
  intro c hc hsize
  rw [Parser.separated, Parser.separated, h.separated1 hforward hsep c hc hsize]

theorem skipFrom {q q' : Parser Unit} (h : AlikeFrom size start q q') (rest : List Char)
    (pos : Nat) (alt : Option Fault) (hpos : start ≤ pos) (hsize : pos + rest.length = size) :
    skipFrom q rest pos alt = skipFrom q' rest pos alt := by
  induction rest generalizing pos alt with
  | nil => rw [Parser.skipFrom, Parser.skipFrom, h _ hpos hsize]
  | cons x rest ih =>
    have hsize' : pos + 1 + rest.length = size := by
      rw [List.length_cons] at hsize
      omega
    simp only [Parser.skipFrom, h ⟨pos, x :: rest⟩ hpos hsize,
      ih (pos + 1) _ (Nat.le_succ_of_le hpos) hsize']

theorem skipThrough {q q' : Parser Unit} (h : AlikeFrom size start q q') :
    AlikeFrom size start (skipThrough q) (skipThrough q') := fun c hc hsize =>
  h.skipFrom c.rest c.pos none hc hsize

/-! #### Spans and conditions -/

theorem spanned (h : AlikeFrom size start p p') :
    AlikeFrom size start (spanned p) (spanned p') := by
  intro c hc hsize
  rw [Parser.spanned, Parser.spanned, h c hc hsize]

theorem accepted (h : AlikeFrom size start p p') (judge : α → Except (Option Refusal) β) :
    AlikeFrom size start (accepted p judge) (accepted p' judge) := by
  intro c hc hsize
  rw [Parser.accepted, Parser.accepted, h c hc hsize]

end AlikeFrom

/-- The notions that contain one another give the same replies from a position on. -/
structure Inner.AlikeFrom (size start : Nat) (g g' : Inner) : Prop where
  classType : Grammar.AlikeFrom size start g.classType g'.classType
  unary : Grammar.AlikeFrom size start g.unary g'.unary
  expression : Grammar.AlikeFrom size start g.expression g'.expression
  statement : Grammar.AlikeFrom size start g.statement g'.statement

/-- What a well-formed rule answers from a position on depends on what the notions answer behind
that position.  If something was read already, it is one position further. -/
theorem WellFormed.alikeFrom {behind reads : Bool} {rule : Inner → Parser α}
    (h : WellFormed behind reads rule) {size start : Nat} {g g' : Inner}
    (hg : g'.Advancing size) (hsame : Inner.AlikeFrom size (start + 1) g g') :
    AlikeFrom size (start + behind.toNat) (rule g) (rule g') := by
  induction h with
  | classType => exact hsame.classType
  | unary => exact hsame.unary
  | expression => exact hsame.expression
  | statement => exact hsame.statement
  | @later _ behind _ _ _ ih => exact ih.of_le (Nat.add_le_add_left behind.toNat_le start)
  | weaken _ ih => exact ih
  | pure | satisfy | exactly | endOfInput => exact .rfl
  | bind hp _ ihp ihf =>
    exact ihp.bind ((hp.places hg).mono fun _ _ _ hle _ _ hpos => hpos.trans hle) ihf
  | after hp _ ihp ihf =>
    -- the first rule reads something, so the second one has its turn a position further
    exact ihp.bind ((hp.places hg).mono fun _ _ _ _ _ hlt hpos =>
      Nat.succ_le_of_lt ((Nat.le_of_add_right_le hpos).trans_lt (hlt rfl))) ihf
  | map f _ ih => exact ih.map
  | orElse _ _ ihp ihq => exact ihp.orElse ihq
  | firstOf _ _ ihp ihq =>
    exact ihp.firstOf (List.forall₂_map_left_iff.mpr
      (List.forall₂_map_right_iff.mpr (List.forall₂_same.mpr ihq)))
  | optional _ ih => exact ih.optional
  | many hp ih => exact ih.many (hp.places hg).forward
  | many1 hp ih => exact ih.many1 (hp.places hg).forward
  | separated hp hsep ih _ => exact ih.separated (hp.places hg).forward (hsep.places hg).forward
  | separated1 hp hsep ih _ => exact ih.separated1 (hp.places hg).forward (hsep.places hg).forward
  | skipThrough _ ih => exact ih.skipThrough
  | spanned _ ih => exact ih.spanned
  | accepted judge _ ih => exact ih.accepted judge

/-! ### Choices and sequences as they are written -/

namespace WellFormed

variable {behind reads : Bool} {p : Inner → Parser α}

/-- Each of several rules is well-formed. -/
def Each (behind reads : Bool) (others : Inner → List (Parser α)) : Prop :=
  ∃ rules : List (Inner → Parser α), (∀ g, others g = rules.map fun q => q g) ∧
    ∀ q ∈ rules, WellFormed behind reads q

theorem Each.nil : Each (α := α) behind reads fun _ => [] :=
  ⟨[], fun _ => rfl, List.forall_mem_nil _⟩

theorem Each.cons {others : Inner → List (Parser α)} (h : WellFormed behind reads p)
    (hothers : Each behind reads others) : Each behind reads fun g => p g :: others g := by
  obtain ⟨rules, hrules, hall⟩ := hothers
  exact ⟨p :: rules, fun g => congrArg (p g :: ·) (hrules g),
    List.forall_mem_cons.mpr ⟨h, hall⟩⟩

theorem choice {others : Inner → List (Parser α)} (h : WellFormed behind reads p)
    (hothers : Each behind reads others) :
    WellFormed behind reads fun g => Parser.firstOf (p g) (others g) := by
  obtain ⟨rules, hrules, hall⟩ := hothers
  simp only [hrules]
  exact .firstOf h hall

/-- A rule behind something that is read. -/
theorem next {r : Inner → Parser β} (hp : WellFormed behind true p)
    (hr : WellFormed true reads r) : WellFormed behind true fun g => p g >>= fun _ => r g :=
  .after hp fun _ => hr.weaken

end WellFormed

/-! ### Words, signs and literals -/

section Lexical

variable {behind reads : Bool} {p : Inner → Parser α}

theorem wellFormed_newline : WellFormed behind false fun _ => newline :=
  .orElse (.bind (.optional (.exactly (by simp))) fun _ => .weaken (.exactly (by simp)))
    (.bind (.satisfy endsLine) fun _ => .pure ())

theorem wellFormed_lineComment : WellFormed behind true fun _ => lineComment :=
  .next (.exactly (by simp)) (.skipThrough (.orElse wellFormed_newline .endOfInput))

theorem wellFormed_blockComment : WellFormed behind true fun _ => blockComment :=
  .next (.exactly (by simp)) (.skipThrough (.exactly (by simp)))

/-- One blank or comment. -/
theorem wellFormed_filling : WellFormed behind true fun _ =>
    orElse (orElse (do let _ ← satisfy isBlank; pure ()) lineComment) blockComment :=
  .orElse (.orElse (.after (.satisfy isBlank) fun _ => .pure ()) wellFormed_lineComment)
    wellFormed_blockComment

theorem wellFormed_blanks : WellFormed behind false fun _ => blanks :=
  .bind (.many wellFormed_filling) fun _ => .pure ()

theorem WellFormed.token (h : WellFormed behind true p) :
    WellFormed behind true fun g => Grammar.token (p g) :=
  .bind wellFormed_blanks fun _ => .after h fun _ => .bind wellFormed_blanks fun _ => .pure _

theorem wellFormed_symbol {s : String} (hs : s.isEmpty = false) :
    WellFormed behind true fun _ => symbol s := .token (.exactly (by simpa using hs))

theorem wellFormed_word : WellFormed behind true fun _ => word :=
  .after (.satisfy _) fun _ => .bind (.many (.satisfy _)) fun _ => .pure _

theorem wellFormed_keyword (w : String) : WellFormed behind true fun _ => keyword w :=
  .token (.accepted _ wellFormed_word)

theorem wellFormed_identifier : WellFormed behind true fun _ => identifier :=
  .token (.accepted _ wellFormed_word)

/-- A sign that stands for a value. -/
theorem wellFormed_signValue {s : String} (hs : s.isEmpty = false) (x : α) :
    WellFormed behind true fun _ => (do symbol s; pure x) :=
  .after (wellFormed_symbol hs) fun _ => .pure x

/-- A word that stands for a value. -/
theorem wellFormed_wordValue (w : String) (x : α) :
    WellFormed behind true fun _ => (do keyword w; pure x) :=
  .after (wellFormed_keyword w) fun _ => .pure x

theorem wellFormed_number : WellFormed behind true fun _ => number := by
  have hinteger : WellFormed behind true fun _ => integerDigits :=
    .orElse (.after (.satisfy _) fun _ => .bind (.many (.satisfy _)) fun _ => .pure _)
      (.after (.exactly (by simp)) fun _ => .pure _)
  refine .accepted _ (.after hinteger fun _ => .bind (.optional ?_) fun _ => .pure _)
  exact .next (.exactly (by simp)) (.many1 (.satisfy _))

theorem wellFormed_escape : WellFormed behind true fun _ => escape := by
  have hchar (c d : Char) : WellFormed true true fun _ => (do exactly [c]; pure d) :=
    .after (.exactly (by simp)) fun _ => .pure d
  exact .next (.exactly (by simp)) (.choice (hchar _ _) (.cons (hchar _ _) (.cons (hchar _ _)
    (.cons (hchar _ _) (.cons (hchar _ _) (.cons (hchar _ _) (.cons (hchar _ _) .nil)))))))

/-- One character of a text in single quotes. -/
theorem wellFormed_quotedChar : WellFormed behind true fun _ =>
    orElse (satisfy fun c => c != '\'' && c != '\\') escape :=
  .orElse (.satisfy _) wellFormed_escape

theorem wellFormed_quoted : WellFormed behind true fun _ => quoted :=
  .after (.exactly (by simp)) fun _ => .bind (.many wellFormed_quotedChar) fun _ =>
    .bind (.exactly (by simp)) fun _ => .pure _

/-- One character of a regular expression. -/
theorem wellFormed_patternChar : WellFormed behind true fun _ =>
    orElse (do exactly ['\\', '/']; pure '/') (satisfy fun c => c != '/') :=
  .orElse (.after (.exactly (by simp)) fun _ => .pure _) (.satisfy _)

theorem wellFormed_pattern : WellFormed behind true fun _ => pattern :=
  .after (.exactly (by simp)) fun _ => .bind (.many wellFormed_patternChar) fun _ =>
    .bind (.exactly (by simp)) fun _ => .pure _

/-- What stands between two signs is behind the first one. -/
theorem WellFormed.between {opening closing : String} (ho : opening.isEmpty = false)
    (hc : closing.isEmpty = false) (h : WellFormed true reads p) :
    WellFormed behind true fun g => Grammar.between opening (p g) closing :=
  .after (wellFormed_symbol ho) fun _ => .bind h fun _ => .bind (wellFormed_symbol hc) fun _ =>
    .pure _

end Lexical

end ScriptOutline.Grammar
