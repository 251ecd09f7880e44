/-
ScriptOutline/Proofs/Place.lean

The pieces of a source, and where they may stand in it.  A piece is anything that has a span:
code, annotations, members and classes.  `Piece.inner` lists the pieces directly inside a
piece, with those that no walk visits: the default values of parameters, the arguments of
annotations and the second copy of the tested operand of `a ?: b`.

A piece inside another one is in its place (`Piece.Seats`) if it was not written and stands
for what is missing there (`Part.Lacks`), or if its span is not empty and lies in the room
that the outer piece has for it (`Part.room`).  The room is the span of the outer piece, with
two exceptions: a clause of a switch ends before the switch does, and the body of a case
without statements spans the one character after the clause.

`Piece.Stands start p stop` says that `p` spans some of the characters between two positions,
and that everything in it is in its place.  This is what a rule of the grammar establishes.
-/
import Mathlib.Logic.Relation
import Mathlib.Order.Nat
import ScriptOutline.Code.Walk

namespace ScriptOutline

/-! ### Pieces -/

/-- The default values of parameters. -/
def defaultValues (ps : List Parameter) : List Expression := ps.filterMap Parameter.defaultValue

/-- The code directly in an expression, as it is stored. -/
def ExpressionNode.inner : ExpressionNode → List Part
  | .elvis condition value otherwise =>
    [.expression condition, .expression value, .expression otherwise]
  | .closure parameters code =>
    (defaultValues (parameters.getD [])).map .expression ++ [.statement code]
  | .interpolation fragments values => (fragments ++ values).map .expression
  | n => n.children

/-- The code directly in a part, as it is stored. -/
def Part.inner : Part → List Part
  | .expression e => e.node.inner
  | p => p.children

def Part.span : Part → Span
  | .expression e => e.span
  | .statement s => s.span
  | .catchClause c => c.span
  | .caseClause c => c.span

/-- Anything of a script that has a span. -/
inductive Piece where
  | code (part : Part)
  | annotated (use : Annotation)
  | field (field : Field)
  | constructor (constructor : Constructor)
  | method (method : Method)
  | declaration (declaration : ClassDeclaration)

/-- The member as a piece. -/
def Member.piece : Member → Piece
  | .field f => .field f
  | .property f => .field f
  | .constructor _ c => .constructor c
  | .method m => .method m

namespace Piece

def ofExpression (e : Expression) : Piece := .code (.expression e)

def ofStatement (s : Statement) : Piece := .code (.statement s)

def span : Piece → Span
  | .code p => p.span
  | .annotated a => a.span
  | .field f => f.span
  | .constructor c => c.span
  | .method m => m.span
  | .declaration c => c.span

/-- The pieces directly inside a piece. -/
def inner : Piece → List Piece
  | .code p => p.inner.map .code
  | .annotated a => a.members.map fun member => ofExpression member.2
  | .field f => f.annotations.map .annotated ++ f.initial.toList.map ofExpression
  | .constructor c =>
    c.annotations.map .annotated ++ (defaultValues c.parameters).map ofExpression ++
      c.code.toList.map ofStatement
  | .method m =>
    m.annotations.map .annotated ++ (defaultValues m.parameters).map ofExpression ++
      m.code.toList.map ofStatement
  | .declaration c => c.annotations.map .annotated ++ c.members.map Member.piece

/-- The second piece is directly inside the first one. -/
def Holds (p q : Piece) : Prop := q ∈ p.inner

/-- The second piece is the first one or anywhere inside it. -/
def Reaches : Piece → Piece → Prop := Relation.ReflTransGen Holds

end Piece

/-- The pieces that are in no other piece. -/
def Script.roots (s : Script) : List Piece :=
  s.statements.map Piece.ofStatement ++ s.methods.map .method ++ s.classes.map .declaration

/-- The piece is somewhere in the script. -/
def Script.Contains (s : Script) (p : Piece) : Prop := ∃ root ∈ s.roots, root.Reaches p

/-! ### Places -/

/-- The literal `null` where no value was written. -/
def Expression.absent : Expression := .unwritten (.constant .null)

/-- The second part was not written: it stands for what is missing in the first one, or for
the receiver of a call that names none. -/
inductive Part.Lacks : Part → Part → Prop
  | elseBranch {condition whenTrue span} :
    Lacks (.statement ⟨.branch condition whenTrue .missing, span⟩) (.statement .missing)
  | finallyBlock {body catches span} :
    Lacks (.statement ⟨.tryCatch body catches .missing, span⟩) (.statement .missing)
  | defaultBlock {subject cases span} :
    Lacks (.statement ⟨.switch subject cases .missing, span⟩) (.statement .missing)
  | declaredValue {target span inferred} :
    Lacks (.expression ⟨.declaration target .missing, span, inferred⟩) (.expression .missing)
  | clause {items span inferred} :
    Lacks (.expression ⟨.sequence .clauses items, span, inferred⟩) (.expression .missing)
  | returnedValue {span} : Lacks (.statement ⟨.ret .absent, span⟩) (.expression .absent)
  | message {condition span} :
    Lacks (.statement ⟨.assertion condition .absent, span⟩) (.expression .absent)
  | receiver {method arguments span inferred} :
    Lacks (.expression ⟨.call (.ofName "this") method arguments false true, span, inferred⟩)
      (.expression (.ofName "this"))

theorem Part.Lacks.span_eq {p q : Part} (h : p.Lacks q) : q.span = ⟨0, 0⟩ := by
  cases h <;> rfl

theorem Part.Lacks.inner_eq {p q : Part} (h : p.Lacks q) : q.inner = [] := by
  cases h <;> rfl

/-- Where a part directly inside another one has to stand. -/
def Part.room : Part → Part → Span
  | .statement s, .caseClause _ => ⟨s.span.start, s.span.stop - 1⟩
  | .caseClause c, .statement ⟨.block [] _, _⟩ => ⟨c.span.stop, c.span.stop + 1⟩
  | p, _ => p.span

namespace Piece

/-- What the second piece stands for was not written in the first one. -/
inductive Lacks : Piece → Piece → Prop
  | code {p q : Part} : p.Lacks q → Lacks (.code p) (.code q)

/-- Where a piece directly inside another one has to stand. -/
def room : Piece → Piece → Span
  | .code p, .code q => p.room q
  | p, _ => p.span

/-- The second piece, directly inside the first one, is in its place. -/
def Seats (p q : Piece) : Prop :=
  p.Lacks q ∨ (p.room q).start ≤ q.span.start ∧ q.span.start < q.span.stop ∧
    q.span.stop ≤ (p.room q).stop

/-- Everything in the piece is in its place. -/
def Settled (p : Piece) : Prop := ∀ q, p.Reaches q → ∀ r ∈ q.inner, q.Seats r

theorem Lacks.inner_eq {p q : Piece} (h : p.Lacks q) : q.inner = [] := by
  cases h with
  | code h => rw [inner, h.inner_eq, List.map_nil]

theorem Lacks.span_eq {p q : Piece} (h : p.Lacks q) : q.span = ⟨0, 0⟩ := by
  cases h with
  | code h => rw [span, h.span_eq]

theorem Settled.intro {p : Piece} (hseats : ∀ q ∈ p.inner, p.Seats q)
    (hsettled : ∀ q ∈ p.inner, q.Settled) : p.Settled := by
  intro q hq
  rcases Relation.ReflTransGen.cases_head hq with rfl | ⟨r, hr, hrq⟩
  · exact hseats
  · exact hsettled r hr q hrq

/-- The piece spans some of the characters from `start` to `stop`, and everything in it is in
its place. -/
structure Stands (start : Nat) (p : Piece) (stop : Nat) : Prop where
  start_le : start ≤ p.span.start
  nonempty : p.span.start < p.span.stop
  le_stop : p.span.stop ≤ stop
  settled : p.Settled

namespace Stands

variable {start start' stop stop' : Nat} {p : Piece}

theorem widen (h : p.Stands start stop) (hstart : start' ≤ start) (hstop : stop ≤ stop') :
    p.Stands start' stop' :=
  ⟨hstart.trans h.start_le, h.nonempty, h.le_stop.trans hstop, h.settled⟩

theorem lt (h : p.Stands start stop) : start < stop :=
  h.start_le.trans_lt (h.nonempty.trans_le h.le_stop)

/-- The pieces inside are missing, or stand in the room there is for them. -/
theorem intro (hstart : start ≤ p.span.start) (hlt : p.span.start < p.span.stop)
    (hstop : p.span.stop ≤ stop)
    (h : ∀ q ∈ p.inner, p.Lacks q ∨ q.Stands (p.room q).start (p.room q).stop) :
    p.Stands start stop := by
  refine ⟨hstart, hlt, hstop, Settled.intro (fun q hq => ?_) fun q hq => ?_⟩
  · rcases h q hq with hlacks | hstands
    · exact .inl hlacks
    · exact .inr ⟨hstands.start_le, hstands.nonempty, hstands.le_stop⟩
  · rcases h q hq with hlacks | hstands
    · exact Settled.intro (by simp [hlacks.inner_eq]) (by simp [hlacks.inner_eq])
    · exact hstands.settled

/-- A piece that spans all of a stretch stands there if the pieces inside do. -/
theorem whole (hspan : p.span = ⟨start, stop⟩) (hroom : ∀ q, p.room q = p.span)
    (hlt : start < stop) (h : ∀ q ∈ p.inner, q.Stands start stop) : p.Stands start stop := by
  refine intro (by simp [hspan]) (by simpa [hspan] using hlt) (by simp [hspan]) fun q hq => ?_
  rw [hroom, hspan]
  exact .inr (h q hq)

end Stands

end Piece

/-! ### Seats in a source -/

/-- Only statements have clauses of a switch directly inside. -/
theorem Part.eq_statement_of_caseClause_mem {p : Part} {c : CaseClause}
    (h : .caseClause c ∈ p.inner) : ∃ s, p = .statement s := by
  cases p with
  | statement s => exact ⟨s, rfl⟩
  | expression e =>
    obtain ⟨node, span, inferred⟩ := e
    cases node <;> simp [inner, ExpressionNode.inner, ExpressionNode.children] at h
  | catchClause c => simp [inner, children] at h
  | caseClause c => simp [inner, children] at h

namespace Piece

variable {size : Nat} {p q : Piece}

/-- The second piece is the body of the first one, a case without statements. -/
def IsEmptyCase (p q : Piece) : Prop :=
  ∃ (subject : Expression) (declared : Option (List String)) (bodySpan span : Span),
    p = .code (.caseClause ⟨subject, ⟨.block [] declared, bodySpan⟩, span⟩) ∧
    q = .code (.statement ⟨.block [] declared, bodySpan⟩)

theorem room_of_isEmptyCase (h : p.IsEmptyCase q) :
    p.room q = ⟨p.span.stop, p.span.stop + 1⟩ := by
  obtain ⟨subject, declared, bodySpan, span, rfl, rfl⟩ := h
  rfl

/-- The piece around a clause of a switch is a statement. -/
theorem eq_ofStatement_of_caseClause_mem {c : CaseClause}
    (h : .code (.caseClause c) ∈ p.inner) : ∃ s, p = ofStatement s := by
  cases p with
  | code part =>
    have hmem : .caseClause c ∈ part.inner := by simpa [inner] using h
    obtain ⟨s, rfl⟩ := Part.eq_statement_of_caseClause_mem hmem
    exact ⟨s, rfl⟩
  | declaration d =>
    obtain ⟨m, -, hm⟩ : ∃ m ∈ d.members, m.piece = .code (.caseClause c) := by
      simpa [inner] using h
    cases m <;> simp [Member.piece] at hm
  | _ => simp [inner, ofExpression, ofStatement] at h

/-- The room for a piece is inside the piece around it, unless it is for the body of a case
without statements. -/
theorem room_le (hq : q ∈ p.inner) (h : ¬ p.IsEmptyCase q) :
    p.span.start ≤ (p.room q).start ∧ (p.room q).stop ≤ p.span.stop := by
  rw [room.eq_def]
  split
  · next p q =>
    rw [Part.room.eq_def]
    split
    · exact ⟨Nat.le_refl _, Nat.sub_le _ _⟩
    · next c declared bodySpan =>
      obtain ⟨subject, code, span⟩ := c
      obtain rfl : code = ⟨.block [] declared, bodySpan⟩ := by
        simpa [inner, Part.inner, Part.children, eq_comm] using hq
      exact absurd ⟨subject, declared, bodySpan, span, rfl, rfl⟩ h
    · exact ⟨Nat.le_refl _, Nat.le_refl _⟩
  · exact ⟨Nat.le_refl _, Nat.le_refl _⟩

/-- The piece ends in a source of that many characters, and a clause of a switch has another
character behind it. -/
def Fits (size : Nat) (p : Piece) : Prop :=
  p.span.stop ≤ size ∧ ∀ c, p = .code (.caseClause c) → p.span.stop < size

theorem Seats.fits (h : p.Seats q) (hq : q ∈ p.inner) (hp : p.Fits size) : q.Fits size := by
  rcases h with hlacks | ⟨hstart, hlt, hstop⟩
  · refine ⟨by simp [hlacks.span_eq], ?_⟩
    obtain ⟨hlacks⟩ := hlacks
    cases hlacks <;> simp
  · refine ⟨?_, ?_⟩
    · by_cases hempty : p.IsEmptyCase q
      · rw [room_of_isEmptyCase hempty] at hstop
        obtain ⟨subject, declared, bodySpan, span, rfl, -⟩ := hempty
        exact hstop.trans (hp.2 _ rfl)
      · exact hstop.trans ((room_le hq hempty).2.trans hp.1)
    · rintro c rfl
      obtain ⟨s, rfl⟩ := eq_ofStatement_of_caseClause_mem hq
      have hle : s.span.stop ≤ size := hp.1
      have hroom : c.span.stop ≤ s.span.stop - 1 := hstop
      have hlt : c.span.start < c.span.stop := hlt
      change c.span.stop < size
      omega

/-- The pieces that are in no other piece are no clauses. -/
theorem fits_of_mem_roots {s : Script} (hp : p ∈ s.roots) (hstop : p.span.stop ≤ size) :
    p.Fits size := by
  refine ⟨hstop, ?_⟩
  rintro c rfl
  simp [Script.roots, ofStatement] at hp

theorem Reaches.fits (h : p.Reaches q) (hsettled : p.Settled) (hp : p.Fits size) :
    q.Fits size := by
  induction h with
  | refl => exact hp
  | tail hreach hstep ih => exact (hsettled _ hreach _ hstep).fits hstep ih

end Piece

/-! ### Code in its place -/

/-- The part stands between two positions. -/
abbrev Part.Stands (start : Nat) (p : Part) (stop : Nat) : Prop :=
  (Piece.code p).Stands start stop

abbrev Expression.Stands (start : Nat) (e : Expression) (stop : Nat) : Prop :=
  (Part.expression e).Stands start stop

abbrev Statement.Stands (start : Nat) (s : Statement) (stop : Nat) : Prop :=
  (Part.statement s).Stands start stop

/-- All parts of a list stand between two positions. -/
def AllStand (start : Nat) (ps : List Part) (stop : Nat) : Prop :=
  ∀ p ∈ ps, p.Stands start stop

namespace AllStand

variable {start stop : Nat} {p : Part} {ps qs : List Part} {es : List Expression}

theorem nil : AllStand start [] stop := fun _ h => nomatch h

theorem cons (hp : p.Stands start stop) (hps : AllStand start ps stop) :
    AllStand start (p :: ps) stop := List.forall_mem_cons.mpr ⟨hp, hps⟩

theorem append (hps : AllStand start ps stop) (hqs : AllStand start qs stop) :
    AllStand start (ps ++ qs) stop := List.forall_mem_append.mpr ⟨hps, hqs⟩

theorem expressions (h : ∀ e ∈ es, e.Stands start stop) :
    AllStand start (es.map .expression) stop := List.forall_mem_map.mpr h

end AllStand

theorem Part.Stands.intro {start stop : Nat} {p : Part} (hstart : start ≤ p.span.start)
    (hlt : p.span.start < p.span.stop) (hstop : p.span.stop ≤ stop)
    (h : ∀ q ∈ p.inner, p.Lacks q ∨ q.Stands (p.room q).start (p.room q).stop) :
    p.Stands start stop :=
  Piece.Stands.intro hstart hlt hstop (List.forall_mem_map.mpr fun q hq =>
    (h q hq).imp Piece.Lacks.code id)

section

variable {start stop lo hi : Nat} {node : ExpressionNode}

/-- An expression stands at its span if its parts do. -/
theorem Expression.Stands.of_inner (hstart : lo ≤ start) (hlt : start < stop) (hstop : stop ≤ hi)
    (h : AllStand start node.inner stop) : Expression.Stands lo (.written node ⟨start, stop⟩) hi :=
  Part.Stands.intro hstart hlt hstop fun q hq => .inr (h q hq)

/-- An expression stands in the stretch that was read for it if its parts do. -/
theorem Expression.Stands.whole (hlt : start < stop) (h : AllStand start node.inner stop) :
    Expression.Stands start (.written node ⟨start, stop⟩) stop :=
  .of_inner (Nat.le_refl _) hlt (Nat.le_refl _) h

/-- An expression stands at its own span. -/
theorem Expression.Stands.own {e : Expression} (h : e.Stands lo hi) :
    e.Stands e.span.start e.span.stop := ⟨Nat.le_refl _, h.nonempty, Nat.le_refl _, h.settled⟩

/-- A condition stands where its expression does. -/
theorem Expression.Stands.asCondition {e : Expression} (h : e.Stands lo hi) :
    e.asCondition.Stands lo hi :=
  .of_inner h.start_le h.nonempty h.le_stop (.cons h.own .nil)

/-- What is put behind an expression makes a longer one. -/
theorem Expression.Stands.extend {object : Expression} (h : object.Stands lo start)
    (hle : start ≤ stop) (hstop : stop ≤ hi)
    (hinner : ∀ q ∈ node.inner, q = .expression object ∨ q.Stands start stop) :
    Expression.Stands lo (.written node ⟨object.span.start, stop⟩) hi := by
  have hend : object.span.stop ≤ start := h.le_stop
  have hlt : object.span.start < object.span.stop := h.nonempty
  refine .of_inner h.start_le (by omega) hstop fun q hq => ?_
  rcases hinner q hq with rfl | hq
  · exact h.own.widen (Nat.le_refl _) (by omega)
  · exact hq.widen (by omega) (Nat.le_refl _)

/-- Two expressions, one behind the other, make one that spans both and all that stands
between them. -/
theorem Expression.Stands.through {left right : Expression} (hleft : left.Stands lo start)
    (hright : right.Stands stop hi) (hle : start ≤ stop)
    (hinner : ∀ q ∈ node.inner, q.Stands left.span.start left.span.stop ∨ q.Stands start stop ∨
      q.Stands right.span.start right.span.stop) :
    Expression.Stands lo (.written node (left.span.through right.span)) hi := by
  have hlt : left.span.start < left.span.stop := hleft.nonempty
  have hend : left.span.stop ≤ start := hleft.le_stop
  have hbegin : stop ≤ right.span.start := hright.start_le
  have hlt' : right.span.start < right.span.stop := hright.nonempty
  refine .of_inner hleft.start_le (by omega) hright.le_stop fun q hq => ?_
  rcases hinner q hq with h | h | h <;> exact h.widen (by omega) (by omega)

end

end ScriptOutline
