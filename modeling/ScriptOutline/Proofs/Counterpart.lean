/-
ScriptOutline/Proofs/Counterpart.lean

Two outlines of the same module.  The label of a node is up to the templates of the session, so a
node does not always tell its kind.  A session without templates does: its outline of the same
source has the same nodes with the same rows, and each is labelled with its kind.  So every node
has a counterpart at its place there.

A node and its counterpart show the same part of code, or neither of them shows code
(`Outline.Counterpart`).  What is known of all code that is shown is therefore known of all nodes
that are labelled with a kind of code (`Session.compile_counterparts`).  The comparison goes
through outlines as they are made: forests of code, then members, classes and modules.
-/
import Mathlib.Data.List.Forall2
import ScriptOutline.Proofs.Complete
import ScriptOutline.Proofs.SessionOutline

namespace ScriptOutline

/-! ### Two outlines -/

namespace Outline

/-- Every node of the first outline has one at the same place in the second outline, to which it
is related. -/
def Throughout (R : Outline → Outline → Prop) (t kinds : Outline) : Prop :=
  ∀ path n, t.get? path = some n → ∃ k, kinds.get? path = some k ∧ R n k

theorem forall₂_getElem? {α β : Type} {R : α → β → Prop} {xs : List α} {ys : List β}
    (h : List.Forall₂ R xs ys) {i : Nat} {x : α} (hx : xs[i]? = some x) :
    ∃ y, ys[i]? = some y ∧ R x y := by
  induction h generalizing i with
  | nil => simp at hx
  | cons hxy _ ih =>
    cases i with
    | zero =>
      obtain rfl : _ = x := by simpa using hx
      exact ⟨_, rfl, hxy⟩
    | succ i => simpa using ih (by simpa using hx)

variable {R : Outline → Outline → Prop} {t kinds : Outline}

/-- A node over nodes. -/
theorem Throughout.node (h : R t kinds)
    (hchildren : List.Forall₂ (Throughout R) t.children kinds.children) : Throughout R t kinds := by
  intro path n hn
  cases path with
  | nil =>
    obtain rfl : t = n := by simpa [get?] using hn
    exact ⟨kinds, rfl, h⟩
  | cons i path =>
    rw [get?] at hn
    split at hn
    · next child hchild =>
      obtain ⟨kind, hkind, hbelow⟩ := forall₂_getElem? hchildren hchild
      obtain ⟨k, hk, hrelated⟩ := hbelow path n hn
      refine ⟨k, ?_, hrelated⟩
      rw [get?, hkind]
      exact hk
    · cases hn

theorem Throughout.mono {S : Outline → Outline → Prop} (h : Throughout R t kinds)
    (himp : ∀ n k, R n k → S n k) : Throughout S t kinds := by
  intro path n hn
  obtain ⟨k, hk, hrelated⟩ := h path n hn
  exact ⟨k, hk, himp n k hrelated⟩

/-! ### Counterparts -/

/-- The names of the kinds of code: all kinds but the first six, which are those of declarations. -/
def codeLabels : List String := (Kind.all.drop 6).map Kind.simpleName

/-- A node, and the one at its place where nodes are labelled with their kinds.  Both show the
same code, of which `P` is true, or neither shows code. -/
inductive Counterpart (P : Part → Prop) (labels : LabelMapping) : Outline → Outline → Prop
  | code {p : Part} : P p → p.Present → Counterpart P labels (p.node labels) (p.node .empty)
  | other {n k : Outline} : k.rows = n.rows → k.label ∉ codeLabels → Counterpart P labels n k

theorem Counterpart.rows_eq {P : Part → Prop} {labels : LabelMapping} {n k : Outline}
    (h : Counterpart P labels n k) : k.rows = n.rows := by
  cases h with
  | code => rfl
  | other hrows => exact hrows

end Outline

open Outline

variable (labels : LabelMapping) {P : Part → Prop}

/-- The two outlines have their nodes in common. -/
abbrev Outline.Matches (P : Part → Prop) (labels : LabelMapping) : Outline → Outline → Prop :=
  Throughout (Counterpart P labels)

/-- A node for a declaration, once with templates and once without. -/
theorem Outline.Matches.ofNode {kind : Kind} {rows : List Row} {children kinds : List Outline}
    (h : kind.simpleName ∉ codeLabels)
    (hchildren : List.Forall₂ (Matches P labels) children kinds) :
    Matches P labels (.ofNode labels kind rows children) (.ofNode .empty kind rows kinds) :=
  -- without a template the label is the name of the kind
  .node (.other rfl h) hchildren

theorem Outline.Matches.ofLabel {label : String} {children kinds : List Outline}
    (h : label ∉ codeLabels) (hchildren : List.Forall₂ (Matches P labels) children kinds) :
    Matches P labels (.ofLabel label children) (.ofLabel label kinds) :=
  .node (.other rfl h) hchildren

/-- Outlines of the members of a list. -/
theorem forall₂_map_outline {α : Type} {R : Outline → Outline → Prop} {outline kinds : α → Outline}
    {xs : List α} (h : ∀ x ∈ xs, R (outline x) (kinds x)) :
    List.Forall₂ R (xs.map outline) (xs.map kinds) :=
  List.forall₂_map_left_iff.mpr (List.forall₂_map_right_iff.mpr (List.forall₂_same.mpr h))

/-! ### Code -/

/-- Lists that are put together from lists of the same lengths. -/
theorem forall₂_flatMap {α β γ : Type} {R : β → γ → Prop} {f : α → List β} {g : α → List γ}
    {xs : List α} (h : ∀ x ∈ xs, List.Forall₂ R (f x) (g x)) :
    List.Forall₂ R (xs.flatMap f) (xs.flatMap g) := by
  induction xs with
  | nil => exact .nil
  | cons x xs ih =>
    obtain ⟨hx, hxs⟩ := List.forall_mem_cons.mp h
    rw [List.flatMap_cons, List.flatMap_cons]
    exact List.rel_append hx (ih hxs)

/-- The forest of code, with templates and without. -/
theorem Part.forest_matches (p : Part) (h : ∀ q ∈ p.walk, P q) :
    List.Forall₂ (Matches P labels) (p.forest labels) (p.forest .empty) := by
  rw [p.walk_eq, List.forall_mem_cons, List.forall_mem_flatMap] at h
  have hchildren : List.Forall₂ (Matches P labels) (p.children.flatMap (·.forest labels))
      (p.children.flatMap (·.forest .empty)) :=
    forall₂_flatMap fun q hq => Part.forest_matches q (h.2 q hq)
  cases hp : p.isPlaceholder with
  | true =>
    rw [forest_of_isPlaceholder labels hp, forest_of_isPlaceholder .empty hp]
    exact .nil
  | false =>
    rw [Present.forest_eq labels hp, Present.forest_eq .empty hp]
    exact .cons (.node (.code h.1 hp) hchildren) .nil
termination_by sizeOf p
decreasing_by exact Part.sizeOf_lt_of_mem_children hq

theorem Expression.outline_matches {e : Expression} (h : ∀ q ∈ (Part.expression e).walk, P q) :
    List.Forall₂ (Matches P labels) (e.outline labels) (e.outline .empty) := by
  rw [e.outline_eq, e.outline_eq]
  exact Part.forest_matches labels _ h

theorem Statement.outline_matches {s : Statement} (h : ∀ q ∈ (Part.statement s).walk, P q) :
    List.Forall₂ (Matches P labels) (s.outline labels) (s.outline .empty) := by
  rw [s.outline_eq, s.outline_eq]
  exact Part.forest_matches labels _ h

/-! ### Classes -/

/-- The property is true of all code that the outline of the class shows. -/
structure CompiledClass.Shows (P : Part → Prop) (c : CompiledClass) : Prop where
  field : ∀ f ∈ c.fields, ∀ e ∈ f.initial, ∀ q ∈ (Part.expression e).walk, P q
  constructor : ∀ x ∈ c.constructors, ∀ s ∈ x.code, ∀ q ∈ (Part.statement s).walk, P q
  method : ∀ m ∈ c.methods, ∀ s ∈ m.code, ∀ q ∈ (Part.statement s).walk, P q

theorem codeOutline_matches {code : Option Statement}
    (h : ∀ s ∈ code, ∀ q ∈ (Part.statement s).walk, P q) :
    List.Forall₂ (Matches P labels) (codeOutline labels code) (codeOutline .empty code) := by
  cases code with
  | none => exact .nil
  | some s => exact Statement.outline_matches labels (h s rfl)

theorem initialOutline_matches {initial : Option Expression}
    (h : ∀ e ∈ initial, ∀ q ∈ (Part.expression e).walk, P q) :
    List.Forall₂ (Matches P labels) (initialOutline labels initial)
      (initialOutline .empty initial) := by
  cases initial with
  | none => exact .nil
  | some e => exact Expression.outline_matches labels (h e rfl)

/-- A category is there in both outlines or in none. -/
theorem categoryOutline_matches {name : String} {members kinds : List Outline}
    (h : name ∉ codeLabels) (hmembers : List.Forall₂ (Matches P labels) members kinds) :
    List.Forall₂ (Matches P labels) (categoryOutline name members)
      (categoryOutline name kinds) := by
  cases hmembers with
  | nil => exact .nil
  | cons hfirst hrest => exact .cons (.ofLabel labels h (.cons hfirst hrest)) .nil

/-- The outline of a class, with templates and without. -/
theorem CompiledClass.Shows.outline_matches {c : CompiledClass} (h : c.Shows P) :
    Matches P labels (c.outline labels) (c.outline .empty) := by
  have hproperty (p : Property) :
      ∀ e ∈ (c.propertyField p).bind Field.initial, ∀ q ∈ (Part.expression e).walk, P q := by
    intro e he
    obtain ⟨f, hf, hinitial⟩ := Option.bind_eq_some_iff.mp he
    exact h.field f (List.mem_of_getElem? hf) e hinitial
  refine .ofNode labels (by decide) ?_
  refine List.rel_append (List.rel_append (List.rel_append (List.rel_append ?_ ?_) ?_) ?_) ?_
  all_goals refine categoryOutline_matches labels (by decide) (forall₂_map_outline fun x hx => ?_)
  · exact .ofNode labels (by decide) (codeOutline_matches labels (h.constructor x hx))
  · exact .ofNode labels (by decide) (codeOutline_matches labels (h.method x hx))
  · exact .ofNode labels (by decide) (initialOutline_matches labels (h.field x hx))
  · exact .ofNode labels (by decide) (initialOutline_matches labels (hproperty x))
  · exact .ofNode labels (by decide) .nil

namespace CompiledModule

variable {m : CompiledModule}

/-- The block of the top-level statements is code of the script class. -/
theorem topLevelOutline_matches (h : ∀ c ∈ m.classes, c.Shows P) :
    List.Forall₂ (Matches P labels) (m.topLevelOutline labels) (m.topLevelOutline .empty) := by
  have hblock : ∀ s ∈ m.statementBlock, ∀ q ∈ (Part.statement s).walk, P q := by
    intro s hs
    obtain ⟨c, hc, hs⟩ := Option.bind_eq_some_iff.mp hs
    obtain ⟨run, hrun, hs⟩ := Option.bind_eq_some_iff.mp hs
    exact (h c (List.mem_of_find?_eq_some hc)).method run (List.mem_of_find?_eq_some hrun) s hs
  rw [topLevelOutline, topLevelOutline]
  split
  · next hsome => exact Statement.outline_matches labels (hblock _ hsome)
  · exact .nil

theorem outlines_matches (h : ∀ c ∈ m.classes, c.Shows P) :
    List.Forall₂ (Matches P labels) (m.outlines labels) (m.outlines .empty) :=
  List.rel_append (topLevelOutline_matches labels h)
    (forall₂_map_outline fun c hc => (h c hc).outline_matches labels)

end CompiledModule

/-! ### Sessions -/

theorem Compilation.outlines_matches {α : Type} {c : Compilation α}
    (h : ∀ m ∈ c.module, ∀ k ∈ m.classes, k.Shows P) :
    List.Forall₂ (Matches P labels) (c.outlines labels) (c.outlines .empty) := by
  rw [Compilation.outlines, Compilation.outlines]
  cases hm : c.module with
  | none => exact .nil
  | some m => exact m.outlines_matches labels (h m hm)

namespace Session

/-- No number makes the name of a source the name of a kind of code. -/
theorem unitName_notMem_codeLabels (n : Nat) : unitName n ∉ codeLabels := by
  have hall : ∀ label ∈ codeLabels, label.toList.take 2 ≠ ['S', 'c'] := by decide
  refine fun h => hall _ h ?_
  rw [unitName, String.toList_append]
  rfl

/-- A session answers with an outline of which every node has a counterpart in the answer of a
session without templates that has been asked the same. -/
theorem compile_counterparts (labels : LabelMapping) (earlier : List (String × Phase))
    (source : String) (phase : Phase) (root : Outline)
    (hcode : ∀ name c answers,
      (Compilation.new name source : Compilation Unit).compile phase = (c, .ok answers) →
        ∀ m ∈ c.module, ∀ k ∈ m.classes, k.Shows P)
    (h : (((new labels).afterAll earlier).compile source phase).2 = .ok root) :
    ∃ kinds, (((new .empty).afterAll earlier).compile source phase).2 = .ok kinds ∧
      Matches P labels root kinds := by
  obtain ⟨hcount, hlabels⟩ := (new labels).afterAll_count earlier
  obtain ⟨hcount', hlabels'⟩ := (new .empty).afterAll_count earlier
  have hanswer := compile_answer (α := Unit) ((new labels).afterAll earlier) source phase
  have hkinds := compile_answer (α := Unit) ((new .empty).afterAll earlier) source phase
  rw [h, hcount, hlabels, new] at hanswer
  rw [hcount', hlabels', new] at hkinds
  -- both sessions compile the same source under the same name, so the module is the same one
  generalize 0 + earlier.length + 1 = number at hanswer hkinds
  rcases hcompile : (Compilation.new (unitName number) source : Compilation Unit).compile phase with
    ⟨c, error | answers⟩
  · rw [hcompile] at hanswer
    cases hanswer
  · rw [hcompile] at hanswer hkinds
    obtain rfl : root = .ofLabel (unitName number) (c.outlines labels) := Except.ok.inj hanswer
    refine ⟨_, hkinds, .ofLabel labels (unitName_notMem_codeLabels number) ?_⟩
    exact c.outlines_matches labels (hcode _ c answers hcompile)

end Session

end ScriptOutline
