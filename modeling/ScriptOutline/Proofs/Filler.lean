/-
ScriptOutline/Proofs/Filler.lean

Blanks and comments before a script.  A text of blanks, closed block comments and line comments
that end (`Filler`) makes no difference to the code behind it: the same script is read, with
everything in it so many characters later, or none is (`Script.parse_filler`).

Where blanks end depends on the text alone, so blanks that start before the filler end where
blanks that start behind it do (`Filler.cursor?_blanks`).  From there on the rest of the script is
read, at another place than without the filler and with more levels of nesting to spare, and both
do not matter (`moves_script`).  Only the empty source needs another argument: at its end nothing
is read, and there is no position that could tell a span from that of what was not written.
-/
import ScriptOutline.Proofs.MovedScript
import ScriptOutline.Proofs.Reading

namespace ScriptOutline

namespace Grammar

open ScriptOutline.Grammar.Parser

/-! ### Filler -/

/-- The characters that end a line. -/
def isLineEnd (c : Char) : Bool := c == '\n' || endsLine c

/-- Blanks, closed block comments, and line comments up to the end of their line. -/
inductive Filler : List Char → Prop
  | nil : Filler []
  | blank {c : Char} {w : List Char} : isBlank c = true → Filler w → Filler (c :: w)
  | block {body w : List Char} : ¬ ['*', '/'] <:+: body → Filler w →
      Filler ('/' :: '*' :: (body ++ '*' :: '/' :: w))
  | line {text : List Char} {stop : Char} {w : List Char} :
      (∀ c ∈ text, isLineEnd c = false) → isLineEnd stop = true → Filler w →
      Filler ('/' :: '/' :: (text ++ stop :: w))

/-- One blank or comment. -/
def filling : Parser Unit :=
  orElse (orElse (do let _ ← satisfy isBlank; pure ()) lineComment) blockComment

theorem blanks_eq : blanks = (do let _ ← many filling; pure ()) := rfl

theorem advances_filling {size : Nat} : Advances size filling := by
  refine .orElse (.orElse ?_ ?_) ?_
  · exact (advances_satisfy isBlank).then fun _ => .pure_forward _
  · exact (advances_exactly (by simp)).then fun _ =>
      places_skipThrough (places_newline.orElse places_endOfInput.forward)
  · exact (advances_exactly (by simp)).then fun _ => places_skipThrough (places_exactly _).forward

section

variable {cs rest : List Char}

theorem reads_blank {c : Char} (h : isBlank c = true) :
    Reads filling (c :: rest) rest fun _ => True :=
  ((Reads.satisfy h).bind fun _ _ => Reads.pure trivial).orElse_left.orElse_left

theorem fails_blank {c : Char} (h : isBlank c = false) :
    Fails (do let _ ← satisfy isBlank; pure ()) (c :: cs) :=
  (Fails.satisfy (by simpa using h)).bind

/-- A block comment ends with the first `*/`. -/
theorem reads_block {body : List Char} (h : ¬ ['*', '/'] <:+: body) :
    Reads filling ('/' :: '*' :: (body ++ '*' :: '/' :: rest)) rest fun _ => True := by
  have hskip : ∀ x xs, x :: xs <:+ body →
      Fails (exactly ['*', '/']) (x :: xs ++ '*' :: '/' :: rest) := by
    intro x xs hsuffix
    refine Fails.exactly fun hprefix => ?_
    obtain ⟨rfl, htail⟩ := List.cons_prefix_cons.mp hprefix
    cases xs with
    | nil => simp at htail
    | cons y ys =>
      obtain ⟨rfl, -⟩ := List.cons_prefix_cons.mp htail
      exact h (List.IsInfix.trans ⟨[], ys, rfl⟩ hsuffix.isInfix)
  refine Reads.orElse_right (Fails.orElse ?_ ?_) ?_
  · exact fails_blank (by decide)
  · exact (Fails.exactly (by simp)).bind
  · exact (Reads.exactly ['/', '*'] _).bind fun _ _ =>
      .skipThrough hskip (Reads.exactly ['*', '/'] rest)

theorem fails_newline {c : Char} (h : isLineEnd c = false) : Fails newline (c :: cs) := by
  obtain ⟨hline, hends⟩ := Bool.or_eq_false_iff.mp h
  have hreturn : c ≠ '\r' := by
    rintro rfl
    cases hends
  refine Fails.orElse ?_ (Fails.satisfy (by simpa using hends)).bind
  refine Fails.bind_after (Reads.optional_none (Fails.exactly ?_)) fun _ _ => Fails.exactly ?_
  · simp [Ne.symm hreturn]
  · simpa using fun heq => by simp [← heq] at hline

/-- The end of a line is one character, or a line feed is taken with it. -/
theorem reads_newline {stop : Char} (h : isLineEnd stop = true) (rest : List Char) :
    Reads newline (stop :: rest) rest (fun _ => True) ∨
      ∃ rest', rest = '\n' :: rest' ∧ Reads newline (stop :: rest) rest' fun _ => True := by
  by_cases hline : stop = '\n'
  · subst hline
    exact .inl (((Reads.optional_none (Fails.exactly (by simp))).bind fun _ _ =>
      Reads.exactly ['\n'] rest).orElse_left)
  have hends : endsLine stop = true := by simpa [isLineEnd, hline] using h
  have hchar : Reads (do let _ ← satisfy endsLine; pure ()) (stop :: rest) rest fun _ => True :=
    (Reads.satisfy hends).bind fun _ _ => Reads.pure trivial
  by_cases hreturn : stop = '\r'
  · subst hreturn
    have hfirst : Reads (optional (exactly ['\r'])) ('\r' :: rest) rest fun _ => True :=
      (Reads.exactly ['\r'] rest).optional fun _ _ => trivial
    by_cases hfeed : ['\n'] <+: rest
    · obtain ⟨rest', rfl⟩ := hfeed
      exact .inr ⟨rest', rfl,
        (hfirst.bind fun _ _ => Reads.exactly ['\n'] rest').orElse_left⟩
    · exact .inl (Reads.orElse_right (Fails.bind_after hfirst fun _ _ => Fails.exactly hfeed) hchar)
  · refine .inl (Reads.orElse_right ?_ hchar)
    exact Fails.bind_after (Reads.optional_none (Fails.exactly (by simp [Ne.symm hreturn])))
      fun _ _ => Fails.exactly (by simp [Ne.symm hline])

theorem reads_line {text : List Char} {stop : Char}
    (htext : ∀ c ∈ text, isLineEnd c = false) (hstop : isLineEnd stop = true)
    (rest : List Char) :
    Reads filling ('/' :: '/' :: (text ++ stop :: rest)) rest (fun _ => True) ∨
      ∃ rest', rest = '\n' :: rest' ∧
        Reads filling ('/' :: '/' :: (text ++ stop :: rest)) rest' fun _ => True := by
  have hskip : ∀ x xs, x :: xs <:+ text →
      Fails (orElse newline endOfInput) (x :: xs ++ stop :: rest) := fun x xs hsuffix =>
    (fails_newline (htext x (hsuffix.subset List.mem_cons_self))).orElse (Fails.endOfInput _ _)
  have hline {end' : List Char} (h : Reads newline (stop :: rest) end' fun _ => True) :
      Reads filling ('/' :: '/' :: (text ++ stop :: rest)) end' fun _ => True :=
    (Reads.orElse_right (fails_blank (by decide)) ((Reads.exactly ['/', '/'] _).bind fun _ _ =>
      .skipThrough hskip h.orElse_left)).orElse_left
  exact (reads_newline hstop rest).imp hline fun ⟨rest', heq, h⟩ => ⟨rest', heq, hline h⟩

end

/-! ### Where blanks end -/

/-- Where a parser ends, if it succeeds. -/
def Reply.cursor? {α : Type} : Reply α → Option Cursor
  | .done _ c _ => some c
  | .fail _ => none

/-- What a parser answers, if it succeeds. -/
def Reply.value? {α : Type} : Reply α → Option α
  | .done x _ _ => some x
  | .fail _ => none

/-- Where a repetition ends does not depend on what was read before, nor on its fuel. -/
theorem cursor?_manyFrom {α : Type} {p : Parser α} (hp : ∀ size, Advances size p)
    (fuel fuel' : List Char) (read read' : List α) (c : Cursor) (alt alt' : Option Fault)
    (h : c.rest.length ≤ fuel.length) (h' : c.rest.length ≤ fuel'.length) :
    (manyFrom p fuel read c alt).cursor? = (manyFrom p fuel' read' c alt').cursor? := by
  rw [manyFrom.eq_def, manyFrom.eq_def p fuel']
  dsimp only
  cases hx : p c with
  | fail fault => rfl
  | done x d alt₁ =>
    obtain ⟨-, hsize, hlt⟩ := hp _ c.pos c.rest rfl x d alt₁ hx
    -- a round reads something, so neither fuel ends before the text does
    have hshorter : d.rest.length < c.rest.length := by omega
    cases fuel with
    | nil => exact absurd (hshorter.trans_le h) (Nat.not_lt_zero _)
    | cons y fuel =>
      cases fuel' with
      | nil => exact absurd (hshorter.trans_le h') (Nat.not_lt_zero _)
      | cons y' fuel' =>
        exact cursor?_manyFrom hp fuel fuel' _ _ d _ _ (Nat.le_of_lt_succ (hshorter.trans_le h))
          (Nat.le_of_lt_succ (hshorter.trans_le h'))

theorem cursor?_blanks (c : Cursor) :
    (blanks c).cursor? = (manyFrom filling c.rest [] c none).cursor? := by
  rw [blanks_eq]
  show (Parser.bind (many filling) (fun _ => pure ()) c).cursor? = _
  rw [Parser.bind, many]
  cases manyFrom filling c.rest [] c none <;> rfl

/-- One blank or comment is passed over. -/
theorem cursor?_blanks_of_reads {cs rest : List Char}
    (h : Reads filling cs rest fun _ => True) {pos pos' : Nat}
    (hsize : pos' + rest.length = pos + cs.length) :
    (blanks ⟨pos, cs⟩).cursor? = (blanks ⟨pos', rest⟩).cursor? := by
  obtain ⟨x, stop, alt, hx, -⟩ := h pos
  obtain ⟨-, hstop, hlt⟩ := advances_filling pos cs rfl x _ alt hx
  obtain rfl : stop = pos' := Nat.add_right_cancel (hstop.trans hsize.symm)
  have hshorter : rest.length < cs.length := by
    dsimp only at hlt
    omega
  rw [cursor?_blanks, cursor?_blanks, manyFrom.eq_def]
  simp only [hx]
  cases cs with
  | nil => exact absurd hshorter (Nat.not_lt_zero _)
  | cons y ys =>
    exact cursor?_manyFrom (fun _ => advances_filling) ys rest _ _ _ _ _
      (Nat.le_of_lt_succ hshorter) (Nat.le_refl _)

/-- A line comment is passed over, with or without the line feed behind it. -/
theorem cursor?_blanks_line {text : List Char} {stop : Char}
    (htext : ∀ c ∈ text, isLineEnd c = false) (hstop : isLineEnd stop = true) (pos : Nat)
    (rest : List Char) :
    (blanks ⟨pos, '/' :: '/' :: (text ++ stop :: rest)⟩).cursor? =
      (blanks ⟨pos + (text.length + 3), rest⟩).cursor? := by
  rcases reads_line htext hstop rest with hreads | ⟨rest, rfl, hreads⟩
  · refine cursor?_blanks_of_reads hreads ?_
    simp only [List.length_cons, List.length_append]
    omega
  · -- the comment ends in `\r`, and what stands behind it starts with `\n`, a blank
    have hfeed : Reads filling ('\n' :: rest) rest fun _ => True := reads_blank (by decide)
    refine (cursor?_blanks_of_reads hreads ?_).trans
      (cursor?_blanks_of_reads hfeed (size_cons (pos + (text.length + 3)) '\n' rest)).symm
    simp only [List.length_cons, List.length_append]
    omega

/-- Blanks before filler end where blanks behind it end. -/
theorem Filler.cursor?_blanks {w : List Char} (hw : Filler w) (pos : Nat) (s : List Char) :
    (blanks ⟨pos, w ++ s⟩).cursor? = (blanks ⟨pos + w.length, s⟩).cursor? := by
  induction hw generalizing pos with
  | nil => rfl
  | @blank c w hc _ ih =>
    rw [List.length_cons, Nat.add_comm w.length, ← Nat.add_assoc, ← ih]
    exact cursor?_blanks_of_reads (reads_blank hc) (size_cons pos c (w ++ s))
  | @block body w hbody _ ih =>
    have hlength : pos + ('/' :: '*' :: (body ++ '*' :: '/' :: w)).length =
        pos + (body.length + 4) + w.length := by
      simp only [List.length_cons, List.length_append]
      omega
    rw [hlength, ← ih]
    simp only [List.cons_append, List.append_assoc]
    refine cursor?_blanks_of_reads (reads_block hbody) ?_
    simp only [List.length_cons, List.length_append]
    omega
  | @line text stop w htext hstop _ ih =>
    have hlength : pos + ('/' :: '/' :: (text ++ stop :: w)).length =
        pos + (text.length + 3) + w.length := by
      simp only [List.length_cons, List.length_append]
      omega
    rw [hlength, ← ih, ← cursor?_blanks_line htext hstop]
    simp only [List.cons_append, List.append_assoc]

/-! ### Scripts behind filler -/

@[simp] theorem Reply.value?_after {α : Type} (alt : Option Fault) (r : Reply α) :
    (r.after alt).value? = r.value? := by
  cases r <;> rfl

/-- A script without the blanks before it. -/
def items (g : Inner) : Parser Script := do
  let items ← many (item g)
  endOfInput
  pure (scriptOf items)

theorem value?_script (g : Inner) (c : Cursor) :
    (script g c).value? = (blanks c).cursor?.bind fun d => (items g d).value? := by
  show (Parser.bind blanks (fun _ => items g) c).value? = _
  rw [Parser.bind]
  cases blanks c with
  | fail fault => rfl
  | done x d alt => exact Reply.value?_after alt _

/-- At the end of a source there is nothing but the empty script. -/
theorem script_end {g : Inner} (h : ∀ size, g.Sound size) :
    Reads (script g) [] [] (· = ⟨[], [], []⟩) := by
  have hitem : Fails (item g) [] := by
    intro pos
    cases hx : item g ⟨pos, []⟩ with
    | fail fault => exact ⟨fault, rfl⟩
    | done x d alt =>
      obtain ⟨-, hsize, hstands⟩ := places_item (h pos) pos [] rfl x d alt hx
      exact absurd (Piece.Stands.lt hstands) (by omega)
  exact (Reads.blanks_none Solid.nil).bind fun _ _ => (Reads.many_none hitem).bind fun _ hnone =>
    Reads.endOfInput.bind fun _ _ => Reads.pure (hnone ▸ rfl)

theorem Reads.value? {α : Type} {p : Parser α} {cs rest : List Char} {x : α}
    (h : Reads p cs rest (· = x)) (pos : Nat) : (p ⟨pos, cs⟩).value? = some x := by
  obtain ⟨x, pos', alt, hp, rfl⟩ := h pos
  rw [hp]
  rfl

/-- A script that stands `k` characters later. -/
theorem value?_script_moved {k n : Nat} {g g' : Inner} (h : Inner.Below k n g g') {c : Cursor}
    (hc : c.Within n) :
    (script g' (c.moved k)).value? = (script g c).value?.map (Script.moved k) := by
  have hmoves := moves_script h c hc
  generalize script g c = r, script g' (c.moved k) = r' at hmoves ⊢
  cases hmoves with
  | done heq _ _ => exact congrArg some heq
  | fail => rfl

/-- The script that a source is read as, if it can be read. -/
def scriptOf? (source : List Char) : Option Script :=
  (script (level (source.length + 1)) (.start source)).value?

theorem Filler.scriptOf?_append {w : List Char} (hw : Filler w) (s : List Char) :
    scriptOf? (w ++ s) = (scriptOf? s).map (Script.moved w.length) := by
  have hbehind : scriptOf? (w ++ s) =
      (script (level ((w ++ s).length + 1)) ⟨w.length, s⟩).value? := by
    rw [scriptOf?, value?_script, value?_script, Cursor.start, hw.cursor?_blanks, Nat.zero_add]
  rw [hbehind, scriptOf?]
  cases s with
  | nil =>
    rw [Cursor.start, (script_end fun _ => level_sound _).value?,
      (script_end fun _ => level_sound _).value?]
    rfl
  | cons x rest =>
    have hmoved : (⟨w.length, x :: rest⟩ : Cursor) =
        (Cursor.start (x :: rest)).moved w.length := by
      rw [Cursor.start, Cursor.moved, Nat.zero_add]
    have hbelow : Inner.Below w.length (x :: rest).length (level ((x :: rest).length + 1))
        (level ((w ++ x :: rest).length + 1)) :=
      ⟨fun _ => level_sound _, fun m hm =>
        level_movesTo m _ _ (by omega) (by rw [List.length_append]; omega)⟩
    -- on the text of the source both levels come to the same end, since it is longer than neither
    rw [hmoved]
    exact value?_script_moved hbelow ⟨Nat.le_refl _, Nat.succ_pos _⟩

end Grammar

open Grammar

theorem Script.parse_eq_ok_iff {source : String} {script : Script} :
    Script.parse source = .ok script ↔ scriptOf? source.toList = some script := by
  rw [Script.parse, scriptOf?]
  cases Grammar.script (level (source.toList.length + 1)) (.start source.toList) <;>
    simp [Reply.value?]

/-- Filler before a source changes nothing but the place at which the script stands. -/
theorem Script.parse_filler {w : String} (hw : Filler w.toList) (s : String) :
    ((∃ script, Script.parse (w ++ s) = .ok script) ↔ ∃ script, Script.parse s = .ok script) ∧
    ∀ script, Script.parse s = .ok script →
      Script.parse (w ++ s) = .ok (script.moved w.length) := by
  simp only [parse_eq_ok_iff, String.toList_append, hw.scriptOf?_append, String.length_toList]
  cases scriptOf? s.toList <;> simp

/-- A `return` without a value; the placeholder for the value has no place. -/
def bareReturn (start : Nat) : Script :=
  ⟨[⟨.ret (.unwritten (.constant .null)), ⟨start, start + 6⟩⟩], [], []⟩

theorem Script.parse_filler_bareReturn :
    Filler " // a\n/* b */".toList ∧ Script.parse "return" = .ok (bareReturn 0) ∧
    Script.parse (" // a\n/* b */" ++ "return") = .ok (bareReturn 13) := by
  have hblock : Filler ('/' :: '*' :: ([' ', 'b', ' '] ++ '*' :: '/' :: [])) :=
    .block (by decide) .nil
  have hline : Filler ('/' :: '/' :: ([' ', 'a'] ++ '\n' :: "/* b */".toList)) :=
    .line (List.forall_mem_cons.mpr ⟨rfl, List.forall_mem_singleton.mpr rfl⟩) rfl hblock
  have hfiller : Filler " // a\n/* b */".toList := .blank (by decide) hline
  have hparse : Script.parse "return" = .ok (bareReturn 0) := by rfl
  exact ⟨hfiller, hparse, (Script.parse_filler hfiller "return").2 _ hparse⟩

end ScriptOutline
