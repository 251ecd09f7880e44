/-
ScriptOutline/Proofs/Tidy.lean

What every source has in common, as far as later phases rely on it.  Nothing that is read has a
type yet.  The receiver of a call that names none is a variable, and so is what a declaration
declares; of the two copies of what `a ?: b` tests one is the condition, and nothing is declared
in it; a text has one fragment more than values; what must not be missing is there
(`Part.Regular`).  A piece is tidy if all code in it is regular (`Piece.Tidy`).

Whatever can be read is tidy (`Piece.Readable.tidy`), and so is every script that is read from a
source (`Script.parse_tidy`).  Both proofs go by the ways in which a piece can be read; the first
thing to know is that a value declares nothing around itself (`Piece.Readable.declares`), because
declarations are statements, or clauses of a loop, and inside an expression they stand in a
closure, which keeps them to itself.
-/
import ScriptOutline.Proofs.ReadableScript

namespace ScriptOutline

/-! ### All code in a piece -/

/-- All code in the piece is such that `P` is true of it. -/
def Piece.Everywhere (P : Part → Prop) (p : Piece) : Prop := ∀ q : Part, p.Reaches (.code q) → P q

namespace Piece.Everywhere

variable {P Q : Part → Prop}

/-- What holds everywhere in a piece holds everywhere in what is in it. -/
theorem inner {p q : Piece} (h : p.Everywhere P) (hq : q ∈ p.inner) : q.Everywhere P :=
  fun r hr => h r (.head hq hr)

theorem self {p : Part} (h : (Piece.code p).Everywhere P) : P p := h p .refl

theorem mono {p : Piece} (h : p.Everywhere P) (himp : ∀ q, P q → Q q) : p.Everywhere Q :=
  fun q hq => himp q (h q hq)

/-- What holds of code, and everywhere in the code in it, holds everywhere. -/
theorem code {p : Part} (hp : P p) (h : ∀ q ∈ p.inner, (Piece.code q).Everywhere P) :
    (Piece.code p).Everywhere P := by
  intro q hq
  rcases Relation.ReflTransGen.cases_head hq with heq | ⟨r, hr, hrq⟩
  · cases heq
    exact hp
  · obtain ⟨part, hpart, rfl⟩ := List.mem_map.mp hr
    exact h part hpart q hrq

/-- The same of a piece that is no code. -/
theorem whole {p : Piece} (hp : ∀ q, p ≠ .code q) (h : ∀ q ∈ p.inner, q.Everywhere P) :
    p.Everywhere P := by
  intro q hq
  rcases Relation.ReflTransGen.cases_head hq with heq | ⟨r, hr, hrq⟩
  · exact absurd heq (hp q)
  · exact h r hr q hrq

end Piece.Everywhere

/-- What is analysed in a piece of code is directly inside it. -/
theorem Part.mem_inner_of_mem_analysed {p : Part} {x : Option Enclosure × Part}
    (h : x ∈ p.analysed) : x.2 ∈ p.inner := by
  have hchildren (y : Option Enclosure) (qs : List Part) (h : x ∈ qs.map fun q => (y, q)) :
      x.2 ∈ qs := by
    obtain ⟨q, hq, rfl⟩ := List.mem_map.mp h
    exact hq
  rcases p with ⟨node, span, inferred⟩ | ⟨node, span⟩ | c | c
  · cases node
    -- of a declaration the value is analysed, and of a closure the code
    case declaration target value =>
      obtain rfl := List.mem_singleton.mp h
      exact .tail _ (.head _)
    case closure parameters code =>
      obtain rfl := List.mem_singleton.mp h
      exact List.mem_append_right _ (.head _)
    case elvis condition value otherwise =>
      exact hchildren none [.expression condition, .expression value, .expression otherwise] h
    case interpolation fragments values =>
      obtain ⟨e, he, rfl⟩ := List.mem_map.mp h
      exact List.mem_map_of_mem he
    all_goals exact hchildren none _ h
  · cases node
    case loop binding collection body =>
      rcases List.mem_pair.mp h with rfl | rfl
      · exact .head _
      · exact .tail _ (.head _)
    case whileLoop condition body =>
      rcases List.mem_pair.mp h with rfl | rfl
      · exact .head _
      · exact .tail _ (.head _)
    case doWhile body condition =>
      rcases List.mem_pair.mp h with rfl | rfl
      · exact .head _
      · exact .tail _ (.head _)
    case switch subject cases defaultBlock => exact hchildren (some .switch) _ h
    all_goals exact hchildren none _ h
  · exact hchildren none [.statement c.code] h
  · exact hchildren none [.expression c.subject, .statement c.code] h

theorem Piece.Everywhere.analysed {P : Part → Prop} {p : Part} (h : (Piece.code p).Everywhere P)
    {x : Option Enclosure × Part} (hx : x ∈ p.analysed) : (Piece.code x.2).Everywhere P :=
  h.inner (List.mem_map_of_mem (Part.mem_inner_of_mem_analysed hx))

/-! ### Tidy code -/

/-- The receiver that a call does not name is a variable, and so is what is declared.  What
`a ?: b` tests is stored as the condition and once more as the value, and declares nothing.  The
fragments of a text stand around its values.  No item of a list is missing. -/
def ExpressionNode.Regular : ExpressionNode → Prop
  | .call object _ _ _ true => object.variableName?.isSome
  | .declaration target _ => target.variableName?.isSome
  | .elvis condition value _ =>
    condition = value.asCondition ∧ (Part.expression value).declares = []
  | .interpolation fragments values => fragments.length = values.length + 1
  | .sequence form items => (ExpressionNode.sequence form items).Complete
  | _ => True

/-- An expression is regular if its node is, and has no type.  A statement is if it is complete. -/
def Part.Regular : Part → Prop
  | .expression e => e.node.Regular ∧ e.inferred = none
  | .statement s => s.node.Complete
  | _ => True

theorem Part.Regular.complete {p : Part} (h : p.Regular) : p.Complete := by
  rcases p with ⟨node, span, inferred⟩ | s | c | c
  · cases node
    case sequence => exact h.1
    all_goals trivial
  · exact h
  · trivial
  · trivial

/-- All code in the piece is regular. -/
abbrev Piece.Tidy (p : Piece) : Prop := p.Everywhere Part.Regular

abbrev Part.Tidy (p : Part) : Prop := (Piece.code p).Tidy

theorem Piece.Tidy.regular {p : Part} (h : p.Tidy) : p.Regular := h.self

abbrev Expression.Tidy (e : Expression) : Prop := (Part.expression e).Tidy

abbrev Statement.Tidy (s : Statement) : Prop := (Part.statement s).Tidy

/-- All parts of a list are tidy. -/
def AllTidy (ps : List Part) : Prop := ∀ p ∈ ps, p.Tidy

namespace AllTidy

variable {p : Part} {ps qs : List Part} {es : List Expression}

theorem nil : AllTidy [] := fun _ h => nomatch h

theorem cons (hp : p.Tidy) (hps : AllTidy ps) : AllTidy (p :: ps) :=
  List.forall_mem_cons.mpr ⟨hp, hps⟩

theorem append (hps : AllTidy ps) (hqs : AllTidy qs) : AllTidy (ps ++ qs) :=
  List.forall_mem_append.mpr ⟨hps, hqs⟩

theorem expressions (h : ∀ e ∈ es, e.Tidy) : AllTidy (es.map .expression) :=
  List.forall_mem_map.mpr h

end AllTidy

theorem Expression.Tidy.written {node : ExpressionNode} {span : Span} (hnode : node.Regular)
    (h : AllTidy node.inner) : (Expression.written node span).Tidy := .code ⟨hnode, rfl⟩ h

theorem Expression.Tidy.asCondition {e : Expression} (h : e.Tidy) : e.asCondition.Tidy :=
  Expression.Tidy.written trivial (.cons h .nil)

theorem Statement.Tidy.of_children {node : StatementNode} {span : Span} (hnode : node.Complete)
    (h : AllTidy node.children) : Statement.Tidy ⟨node, span⟩ := .code hnode h

/-! ### What can be read is tidy -/

/-- A part that declares nothing itself declares what is declared by the code in it. -/
theorem Part.declares_eq_nil {p : Part} (hown : p.declared? = none)
    (h : ∀ q ∈ p.inner, q.declares = []) : p.declares = [] := by
  rw [Part.declares_eq]
  split
  · rfl
  · have hparts : ∀ x ∈ p.analysed, x.2.declares = [] :=
      fun x hx => h x.2 (Part.mem_inner_of_mem_analysed hx)
    rw [hown, List.flatMap_eq_nil_iff.mpr hparts]
    rfl

namespace ExpressionNode.Ordinary

variable {node : ExpressionNode}

theorem declared? (h : node.Ordinary) (span : Span) :
    (Part.expression (.written node span)).declared? = none := by
  cases node
  case declaration => exact h.elim
  all_goals rfl

theorem regular (h : node.Ordinary) (hinner : AllValues node.inner) : node.Regular := by
  cases node
  case call object method arguments safe implicitReceiver =>
    cases implicitReceiver
    · trivial
    · exact h.2 rfl
  case declaration | elvis | interpolation => exact h.elim
  case sequence form items =>
    exact fun _ e he => (hinner (.expression e) (List.mem_map_of_mem he)).present nofun rfl
  all_goals trivial

end ExpressionNode.Ordinary

namespace Piece.Readable

variable {n : Notion} {p : Piece}

/-- Only code that is no value declares something around itself. -/
theorem declares (h : p.Readable n) (hn : n ≠ .code) {q : Part} (hq : p = .code q) :
    q.declares = [] := by
  induction h generalizing q with
  | word name span =>
    cases hq
    exact Part.declares_eq_nil rfl (List.forall_mem_nil _)
  | step name span _ ih =>
    cases hq
    exact Part.declares_eq_nil rfl (List.forall_mem_singleton.mpr (ih nofun rfl))
  | ofPath _ ih => exact ih nofun hq
  | ofValue _ ih => exact ih nofun hq
  | node hnode _ ih =>
    cases hq
    exact Part.declares_eq_nil (hnode.declared? _) fun q hq => ih q hq nofun rfl
  | text _ _ _ ihfragments ihvalues =>
    cases hq
    refine Part.declares_eq_nil rfl (List.forall_mem_map.mpr (List.forall_mem_append.mpr ⟨?_, ?_⟩))
    · exact fun e he => ihfragments e he nofun rfl
    · exact fun e he => ihvalues e he nofun rfl
  | @elvis value otherwise span _ _ ihvalue ihotherwise =>
    cases hq
    have hvalue : (Part.expression value).declares = [] := ihvalue nofun rfl
    have hcondition : (Part.expression value.asCondition).declares = [] :=
      Part.declares_eq_nil rfl (List.forall_mem_singleton.mpr hvalue)
    refine Part.declares_eq_nil rfl (List.forall_mem_cons.mpr ⟨hcondition,
      List.forall_mem_cons.mpr ⟨hvalue, List.forall_mem_singleton.mpr (ihotherwise nofun rfl)⟩⟩)
  | block _ _ =>
    -- a block keeps what is declared in it to itself
    cases hq
    rw [Part.declares_eq]
    rfl
  | part | missing | declaration | clauses | other => exact absurd rfl hn

theorem tidy (h : p.Readable n) : p.Tidy := by
  induction h with
  | word name span => exact Expression.Tidy.written trivial .nil
  | step name span _ ih => exact Expression.Tidy.written trivial (.cons ih .nil)
  | ofPath _ ih | ofValue _ ih | part _ ih => exact ih
  | node hnode hinner ih => exact Expression.Tidy.written (hnode.regular hinner) ih
  | text hlength _ _ ihfragments ihvalues =>
    refine Expression.Tidy.written hlength (AllTidy.expressions ?_)
    exact List.forall_mem_append.mpr ⟨ihfragments, ihvalues⟩
  | @elvis value otherwise span hvalue _ ihvalue ihotherwise =>
    -- the operand that is tested is used twice, and it declares nothing
    have hnode : (ExpressionNode.elvis value.asCondition value otherwise).Regular :=
      ⟨rfl, hvalue.declares nofun rfl⟩
    have ihvalue : value.Tidy := ihvalue
    exact Expression.Tidy.written hnode
      (.cons ihvalue.asCondition (.cons ihvalue (.cons ihotherwise .nil)))
  | block hpresent _ ih => exact Statement.Tidy.of_children hpresent (List.forall_mem_map.mpr ih)
  | missing => exact Expression.Tidy.written trivial .nil
  | @declaration name type value nameSpan span _ _ ih =>
    have htarget : (Expression.written (.variableRef name type none) nameSpan).Tidy :=
      Expression.Tidy.written trivial .nil
    exact Expression.Tidy.written rfl (.cons htarget (.cons ih .nil))
  | clauses _ ih =>
    exact Expression.Tidy.written (fun hform => absurd rfl hform) (AllTidy.expressions ih)
  | @other p hp hcomplete _ _ ih =>
    cases p with
    | code q =>
      cases q with
      | expression e => exact absurd rfl (hp e)
      | statement s =>
        exact .code (hcomplete _ rfl) fun r hr => ih _ (List.mem_map_of_mem hr)
      | _ => exact .code trivial fun r hr => ih _ (List.mem_map_of_mem hr)
    | _ => exact .whole nofun ih

end Piece.Readable

/-- All code in the script is tidy, and none of its statements is missing. -/
structure Script.Tidy (s : Script) : Prop where
  root : ∀ root ∈ s.roots, root.Tidy
  present : ∀ root ∈ s.roots, root.Present

/-- All code that is read from a source is tidy. -/
theorem Script.parse_tidy {source : String} {s : Script} (h : Script.parse source = .ok s) :
    s.Tidy where
  root root hroot := (Script.parse_readable h root hroot).tidy
  present := Script.parse_present h

end ScriptOutline
