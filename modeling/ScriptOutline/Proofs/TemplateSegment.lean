/-
ScriptOutline/Proofs/TemplateSegment.lean

Templates are written from segments: literal texts, in which every dollar sign is doubled, and
names in braces behind a dollar sign.  Filling a template in takes the segments apart again,
although nothing marks where one of them ends: a doubled dollar sign is read before a brace
behind it could open a name, so a literal text that ends in a dollar sign and the placeholder
behind it are not taken for one another.

One lemma says what filling does with each thing that can stand at the front: a doubled dollar
sign, a name in braces, a dollar sign with neither behind it, any other character.  Filling
goes on behind what it has read and never looks at what it has put in, so the lemma about
segments holds with anything behind them (`fill_segments`).

Main results: what a template of segments is filled in to, whatever follows, and that every
template is one of segments up to the first dollar sign that stands for itself
(`render_written`).
-/
import ScriptOutline.Label.Template
import ScriptOutline.Text.Join

namespace ScriptOutline.Template

/-! ### Segments -/

/-- A segment of a template: any literal text, or a placeholder, whose name may be anything
without a closing brace. -/
inductive Segment where
  | literal (text : String)
  | placeholder (name : String) (unclosed : '\x7d' ∉ name.toList)

/-- A character of a literal text as a template writes it. -/
def doubled (c : Char) : List Char := if c = '$' then ['$', '$'] else [c]

/-- A segment as a template writes it. -/
def Segment.chars : Segment → List Char
  | .literal text => text.toList.flatMap doubled
  | .placeholder name _ => '$' :: '\x7b' :: (name.toList ++ ['\x7d'])

/-- The template of some segments. -/
def written (segments : List Segment) : String := String.ofList (segments.flatMap Segment.chars)

/-- The value of the first row of a name, or `null` where there is no row or no value. -/
def lookUp (rows : List Row) (name : String) : String :=
  ((rows.find? (·.name == name)).bind (·.value)).getD "null"

/-- What a segment stands for: the literal text, or the value of the trimmed name. -/
def Segment.value (rows : List Row) : Segment → String
  | .literal text => text
  | .placeholder name _ => lookUp rows (trim name)

/-- The text that some segments stand for. -/
def filled (rows : List Row) (segments : List Segment) : String :=
  joinWith "" (segments.map (·.value rows))

/-- A dollar sign in front of the text stands for itself: the text begins neither with a second
one nor with a name in braces. -/
structure LeavesDollar (rest : String) : Prop where
  noDollar : ∀ after : String, rest ≠ "$" ++ after
  noName : ∀ name after : String, rest ≠ "\x7b" ++ name ++ "\x7d" ++ after

/-! ### Splitting at a brace -/

theorem splitAt_append {c : Char} {before : List Char} (h : c ∉ before) (after : List Char) :
    splitAt c (before ++ c :: after) = some (before, after) := by
  induction before with
  | nil => rw [List.nil_append, splitAt, if_pos rfl]
  | cons x before ih =>
    have hx : x ≠ c := fun hxc => h (hxc ▸ List.mem_cons_self)
    rw [List.cons_append, splitAt, if_neg hx, ih fun hc => h (List.mem_cons_of_mem x hc)]

theorem eq_append_of_splitAt {c : Char} {cs before after : List Char}
    (h : splitAt c cs = some (before, after)) : cs = before ++ c :: after ∧ c ∉ before := by
  induction cs generalizing before with
  | nil => cases h
  | cons x cs ih =>
    rw [splitAt] at h
    split at h
    · rename_i hx
      cases h
      exact ⟨by rw [hx, List.nil_append], List.not_mem_nil⟩
    · rename_i hx
      split at h
      · rename_i tail _ heq
        cases h
        obtain ⟨rfl, hc⟩ := ih heq
        exact ⟨rfl, List.not_mem_cons_of_ne_of_not_mem (Ne.symm hx) hc⟩
      · cases h

theorem not_mem_of_splitAt_eq_none {c : Char} {cs : List Char} (h : splitAt c cs = none) :
    c ∉ cs := by
  induction cs with
  | nil => exact List.not_mem_nil
  | cons x cs ih =>
    rw [splitAt] at h
    split at h
    · cases h
    · rename_i hx
      split at h
      · cases h
      · rename_i heq
        exact List.not_mem_cons_of_ne_of_not_mem (Ne.symm hx) (ih heq)

theorem valueOf_eq (rows : List Row) (name : String) :
    valueOf rows name.toList = (lookUp rows (trim name)).toList := by
  rw [valueOf, lookUp, trim]
  cases rows.find? (·.name == String.ofList (trimBlanks name.toList)) <;> rfl

/-! ### What stands at the front -/

section Front

variable (rows : List Row)

theorem fill_dollars (rest : List Char) :
    fill rows ('$' :: '$' :: rest) = '$' :: fill rows rest := by
  rw [fill]

theorem fill_placeholder {name : String} (h : '\x7d' ∉ name.toList) (rest : List Char) :
    fill rows ('$' :: '\x7b' :: (name.toList ++ '\x7d' :: rest)) =
      (lookUp rows (trim name)).toList ++ fill rows rest := by
  rw [fill, ← valueOf_eq]
  split
  · rename_i before after heq
    rw [splitAt_append h] at heq
    cases heq
    rfl
  · rename_i heq
    rw [splitAt_append h] at heq
    cases heq

theorem fill_of_ne {c : Char} (h : c ≠ '$') (rest : List Char) :
    fill rows (c :: rest) = c :: fill rows rest := by
  rw [fill]
  · rintro _ rfl
    exact absurd rfl h
  · rintro _ rfl
    exact absurd rfl h

theorem LeavesDollar.ne_dollar {rest : String} (h : LeavesDollar rest) (after : List Char) :
    rest.toList ≠ '$' :: after := by
  intro heq
  refine h.noDollar (String.ofList after) (String.toList_inj.mp ?_)
  simp only [heq, String.toList_append, String.toList_ofList]
  rfl

theorem LeavesDollar.ne_name {rest : String} (h : LeavesDollar rest) (name after : List Char) :
    rest.toList ≠ '\x7b' :: (name ++ '\x7d' :: after) := by
  intro heq
  refine h.noName (String.ofList name) (String.ofList after) (String.toList_inj.mp ?_)
  simp only [heq, String.toList_append, String.toList_ofList, List.append_assoc]
  rfl

theorem LeavesDollar.of_chars {cs : List Char} (hdollar : ∀ after, cs ≠ '$' :: after)
    (hname : ∀ name after, cs ≠ '\x7b' :: (name ++ '\x7d' :: after)) :
    LeavesDollar (String.ofList cs) where
  noDollar after h := hdollar after.toList (by
    rw [← String.toList_ofList (l := cs), h, String.toList_append]
    rfl)
  noName name after h := hname name.toList after.toList (by
    rw [← String.toList_ofList (l := cs), h]
    simp only [String.toList_append, List.append_assoc]
    rfl)

theorem fill_stray {rest : String} (h : LeavesDollar rest) :
    fill rows ('$' :: rest.toList) = '$' :: fill rows rest.toList := by
  have hdollar := h.ne_dollar
  have hname := h.ne_name
  generalize rest.toList = cs at hdollar hname
  rw [fill.eq_def]
  split
  · rename_i heq
    cases heq
  · rename_i after heq
    cases heq
    exact absurd rfl (hdollar after)
  · rename_i after heq
    cases heq
    split
    · rename_i name behind hsplit
      exact absurd (by rw [(eq_append_of_splitAt hsplit).1]) (hname name behind)
    · rfl
  · rename_i heq
    cases heq
    rfl

/-- A literal text is filled in as it is, with every doubled dollar sign read as one. -/
theorem fill_literal (text rest : List Char) :
    fill rows (text.flatMap doubled ++ rest) = text ++ fill rows rest := by
  induction text with
  | nil => rfl
  | cons c text ih =>
    rw [List.flatMap_cons, List.append_assoc, doubled]
    split
    · rename_i hc
      subst hc
      rw [List.cons_append, List.cons_append, List.nil_append, fill_dollars, ih]
      rfl
    · rename_i hc
      rw [List.singleton_append, fill_of_ne rows hc, ih]
      rfl

/-- A segment is read up to its end and stands for its value, whatever is behind it. -/
theorem fill_segment (segment : Segment) (rest : List Char) :
    fill rows (segment.chars ++ rest) = (segment.value rows).toList ++ fill rows rest := by
  cases segment with
  | literal text => exact fill_literal rows text.toList rest
  | placeholder name unclosed =>
    rw [Segment.chars, List.cons_append, List.cons_append, List.append_assoc,
      List.singleton_append, fill_placeholder rows unclosed]
    rfl

end Front

/-! ### Segments one after the other -/

theorem toList_filled_cons (rows : List Row) (segment : Segment) (segments : List Segment) :
    (filled rows (segment :: segments)).toList =
      (segment.value rows).toList ++ (filled rows segments).toList := by
  rw [filled, filled, toList_joinWith_empty, toList_joinWith_empty]
  rfl

/-- Segments are filled in one by one, and filling goes on with what is behind them. -/
theorem fill_segments (rows : List Row) (segments : List Segment) (rest : List Char) :
    fill rows (segments.flatMap Segment.chars ++ rest) =
      (filled rows segments).toList ++ fill rows rest := by
  induction segments with
  | nil => rfl
  | cons segment segments ih =>
    rw [List.flatMap_cons, List.append_assoc, fill_segment, ih, toList_filled_cons,
      List.append_assoc]

theorem render_segments (rows : List Row) (segments : List Segment) (rest : String) :
    render (written segments ++ rest) rows = filled rows segments ++ render rest rows := by
  apply String.toList_inj.mp
  rw [render, render, written, String.toList_append, String.toList_append,
    String.toList_ofList, String.toList_ofList, String.toList_ofList, fill_segments]

theorem render_stray (rows : List Row) {rest : String} (h : LeavesDollar rest) :
    render ("$" ++ rest) rows = "$" ++ render rest rows := by
  apply String.toList_inj.mp
  simp only [render, String.toList_append, String.toList_ofList]
  exact fill_stray rows h

/-! ### Every template -/

/-- A text is a template of segments, up to the first dollar sign that stands for itself if
there is one. -/
def Segmented (cs : List Char) : Prop :=
  ∃ segments : List Segment, cs = segments.flatMap Segment.chars ∨
    ∃ rest : String, LeavesDollar rest ∧
      cs = segments.flatMap Segment.chars ++ '$' :: rest.toList

theorem Segmented.cons (segment : Segment) {cs : List Char} (h : Segmented cs) :
    Segmented (segment.chars ++ cs) := by
  obtain ⟨segments, rfl | ⟨rest, hrest, rfl⟩⟩ := h
  · exact ⟨segment :: segments, .inl rfl⟩
  · refine ⟨segment :: segments, .inr ⟨rest, hrest, ?_⟩⟩
    rw [List.flatMap_cons, List.append_assoc]

theorem segmented (cs : List Char) : Segmented cs := by
  induction cs using fill.induct with
  | case1 => exact ⟨[], .inl rfl⟩
  | case2 rest ih => exact ih.cons (.literal "$")
  | case3 rest name after hsplit ih =>
    obtain ⟨rfl, hname⟩ := eq_append_of_splitAt hsplit
    have h := ih.cons (.placeholder (String.ofList name) (by rwa [String.toList_ofList]))
    simpa [Segment.chars] using h
  | case4 rest hsplit _ =>
    -- no brace closes behind the opening one
    have hstray : LeavesDollar (String.ofList ('\x7b' :: rest)) := by
      refine .of_chars (fun after h => ?_) fun name after h => ?_
      · cases h
      · obtain ⟨-, rfl⟩ := List.cons.inj h
        exact not_mem_of_splitAt_eq_none hsplit (List.mem_append_right name List.mem_cons_self)
    exact ⟨[], .inr ⟨_, hstray, by rw [String.toList_ofList]; rfl⟩⟩
  | case5 c rest hdollars hname ih =>
    by_cases hc : c = '$'
    · have hstray : LeavesDollar (String.ofList rest) :=
        .of_chars (fun after h => hdollars after hc h) fun name after h => hname _ hc h
      exact ⟨[], .inr ⟨_, hstray, by rw [String.toList_ofList, hc]; rfl⟩⟩
    · have h := ih.cons (.literal (String.ofList [c]))
      simpa [Segment.chars, doubled, hc] using h

/-- **Templates are filled in segment by segment.**  Whatever the rows are, a template of
literal texts with doubled dollar signs and of names in braces is filled in to the texts and
the values of the names, put together as they are.  What is behind the segments has no part in
it and is filled in on its own: what was put in is not looked through again.  A dollar sign
with neither a second one nor a name in braces behind it is kept.  Every template is one of
segments, or one of segments with such a dollar sign behind them. -/
theorem render_written (rows : List Row) :
    (∀ segments, render (written segments) rows = filled rows segments) ∧
    (∀ segments rest, render (written segments ++ rest) rows =
      filled rows segments ++ render rest rows) ∧
    (∀ segments rest, LeavesDollar rest →
      render (written segments ++ ("$" ++ rest)) rows =
        filled rows segments ++ ("$" ++ render rest rows)) ∧
    ∀ template, ∃ segments, template = written segments ∨
      ∃ rest, LeavesDollar rest ∧ template = written segments ++ ("$" ++ rest) := by
  refine ⟨fun segments => ?_, render_segments rows, fun segments rest h => ?_,
    fun template => ?_⟩
  · have h := render_segments rows segments ""
    have hempty : render "" rows = "" := by simp [render, fill]
    rwa [hempty, String.append_empty, String.append_empty] at h
  · rw [render_segments, render_stray rows h]
  · obtain ⟨segments, h | ⟨rest, hrest, h⟩⟩ := segmented template.toList
    · exact ⟨segments, .inl (by rw [written, ← h, String.ofList_toList])⟩
    · refine ⟨segments, .inr ⟨rest, hrest, String.toList_inj.mp ?_⟩⟩
      rw [h, written, String.toList_append, String.toList_append, String.toList_ofList]
      rfl

/-- A value that begins with a dollar sign, put in behind a dollar sign, is left as it is, and so
is the dollar sign of a price. -/
theorem render_written_price :
    LeavesDollar "5" ∧
      render "$$$\x7b name \x7d costs $5" [.ofString "name" "$\x7bx\x7d"] =
        "$$\x7bx\x7d costs $5" := by
  have hstray : LeavesDollar (String.ofList ['5']) :=
    .of_chars (fun after h => by cases h) fun name after h => by cases h
  refine ⟨hstray, ?_⟩
  let rows : List Row := [.ofString "name" "$\x7bx\x7d"]
  let segments : List Segment :=
    [.literal "$", .placeholder " name " (by decide), .literal " costs "]
  have hrest : render "5" rows = "5" := (render_written rows).1 [.literal "5"]
  calc render "$$$\x7b name \x7d costs $5" rows
      = render (written segments ++ ("$" ++ "5")) rows := by
        rw [show written segments ++ ("$" ++ "5") = "$$$\x7b name \x7d costs $5" by decide +kernel]
    _ = filled rows segments ++ ("$" ++ render "5" rows) :=
        (render_written rows).2.2.1 segments "5" hstray
    _ = "$$\x7bx\x7d costs $5" := by
        rw [hrest]
        decide +kernel

end ScriptOutline.Template
