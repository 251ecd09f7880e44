/-
ScriptOutline/Proofs/Persistent.lean

What holds everywhere in the code of a compilation, whatever phase it has reached.  A property of
single parts of code is persistent (`Part.Persistent`) if all regular code has it, if it has it
once its names are resolved, and if types do not take it away.  No more has to be asked:

* what is read is regular, and conversion only moves it, adding regular code;
* names are resolved once, in code as it was read;
* the members that are made later are regular.

So a persistent property is true everywhere in a compilation that has succeeded
(`Compilation.everywhere_contents`), and also where no walk goes: in the default values of
parameters and in the arguments of annotations.
-/
import ScriptOutline.Proofs.Everywhere

namespace ScriptOutline

/-- All regular code has the property, bound or not, and keeps it when types are told. -/
structure Part.Persistent (P : Part → Prop) : Prop where
  read : ∀ q : Part, q.Regular → P q
  bound : ∀ (k : ClassContext) (inStatic : Bool) (q : Part) (env : Scope), q.Regular →
    P (q.bound k inStatic env)
  declared : ∀ (k : ClassContext) (target : Expression), (Part.expression target).Regular →
    target.variableName?.isSome = true → P (.expression (boundDeclared k target))
  infer : ∀ q : Part, P q → P q.infer

variable {P : Part → Prop}

theorem Part.Persistent.tidy (hP : Part.Persistent P) {p : Piece} (h : p.Tidy) : p.Everywhere P :=
  h.mono hP.read

/-! ### Types -/

/-- What is directly inside an expression with types is what was there, with types, or it is the
default value of a parameter of a closure. -/
theorem ExpressionNode.forall_inner_infer {node : ExpressionNode}
    (hsame : ∀ q ∈ node.inner, P q) (h : ∀ q ∈ node.inner, P q.infer) :
    ∀ q ∈ node.infer.inner, P q := by
  cases node
  case closure parameters code =>
    -- types are told in the code of a closure only, not in its default values
    refine List.forall_mem_append.mpr ⟨(List.forall_mem_append.mp hsame).1, ?_⟩
    have hcode : P (Part.statement code).infer := h _ (List.mem_append_right _ (.head _))
    exact List.forall_mem_singleton.mpr hcode
  case sequence | array | interpolation =>
    simp only [inner, children, ExpressionNode.infer, inferExpressions_eq_map, List.map_append,
      List.forall_mem_append, List.forall_mem_map, Part.infer] at h ⊢
    exact h
  all_goals
    simp only [inner, children, ExpressionNode.infer, List.forall_mem_cons, Part.infer] at h ⊢
    simp [h]

theorem Part.forall_inner_infer {p : Part} (hsame : ∀ q ∈ p.inner, P q)
    (h : ∀ q ∈ p.inner, P q.infer) : ∀ q ∈ p.infer.inner, P q := by
  have hchildren (hsame : p.inner = p.children) : ∀ q ∈ p.infer.children, P q := by
    rw [Part.children_infer, ← hsame]
    exact List.forall_mem_map.mpr h
  rcases p with ⟨node, span, inferred⟩ | s | c | c
  · exact ExpressionNode.forall_inner_infer hsame h
  all_goals exact hchildren rfl

/-- What single parts keep when types are told is kept everywhere. -/
theorem Part.everywhere_infer (hinfer : ∀ q : Part, P q → P q.infer) (p : Part)
    (h : (Piece.code p).Everywhere P) : (Piece.code p.infer).Everywhere P := by
  have hinner : ∀ q ∈ p.inner, (Piece.code q).Everywhere P :=
    fun q hq => h.inner (List.mem_map_of_mem hq)
  refine .code (hinfer p h.self) (Part.forall_inner_infer hinner fun q hq => ?_)
  exact Part.everywhere_infer hinfer q (hinner q hq)
termination_by sizeOf p
decreasing_by exact Part.sizeOf_lt_of_mem_inner hq

/-! ### Members that are made -/

theorem tidy_missingAccessors (p : Property) (owner : String) (methods : List Method) :
    ∀ m ∈ p.missingAccessors owner methods, (Piece.method m).Tidy := by
  have hbacking : (p.backing owner).Tidy := Expression.Tidy.written trivial .nil
  have hgetter : (Piece.method (p.getterMethod owner)).Tidy :=
    Piece.tidy_generatedMethod rfl
      (Statement.Tidy.block_singleton (.of_children trivial (.cons hbacking .nil)) rfl)
  have hsetter : (Piece.method (p.setterMethod owner)).Tidy := by
    have hvalue : (Expression.unwritten (.variableRef "value" none (some .parameter))).Tidy :=
      Expression.Tidy.written trivial .nil
    have hassignment : (Expression.unwritten (.binary (p.backing owner) "="
        (.unwritten (.variableRef "value" none (some .parameter))))).Tidy :=
      Expression.Tidy.written trivial (.cons hbacking (.cons hvalue .nil))
    exact Piece.tidy_generatedMethod rfl
      (Statement.Tidy.block_singleton hassignment.asStatement rfl)
  exact Property.forall_mem_missingAccessors hgetter hsetter methods

theorem tidy_metaClassMethod (className : String) :
    (Piece.method (metaClassMethod className)).Tidy := by
  have hinstructions : (Expression.unwritten
      (.bytecode (metaClassInstructions className))).Tidy := Expression.Tidy.written trivial .nil
  exact Piece.tidy_generatedMethod rfl
    (Statement.Tidy.block_singleton (.of_children trivial (.cons hinstructions .nil)) rfl)

/-! ### Classes -/

namespace CompiledClass

variable {c : CompiledClass}

/-- Everything in a class: its annotations and its members. -/
def contents (c : CompiledClass) : List Piece := c.annotations.map .annotated ++ c.pieces

theorem forall_mem_contents {Q : Piece → Prop} : (∀ p ∈ c.contents, Q p) ↔
    (∀ a ∈ c.annotations, Q (.annotated a)) ∧ ∀ p ∈ c.pieces, Q p := by
  simp only [contents, List.forall_mem_append, List.forall_mem_map]

/-- The property holds everywhere in the class. -/
def Everywhere (P : Part → Prop) (c : CompiledClass) : Prop := ∀ p ∈ c.contents, p.Everywhere P

/-- Resolution gives an annotation a class, and leaves its arguments alone. -/
theorem everywhere_contents_bound (hP : Part.Persistent P) (declared : List String)
    (h : ∀ p ∈ c.contents, p.Tidy) : (c.bound declared).Everywhere P := by
  obtain ⟨hannotations, hpieces⟩ := forall_mem_contents.mp h
  refine forall_mem_contents.mpr
    ⟨?_, everywhere_bound hP.read hP.bound hP.declared declared hpieces⟩
  rw [bound_eq]
  refine List.forall_mem_map.mpr fun a ha => .whole nofun fun q hq => ?_
  exact hP.tidy ((hannotations a ha).inner hq)

theorem Everywhere.canonical (hP : Part.Persistent P) (h : c.Everywhere P) :
    c.canonical.Everywhere P := by
  obtain ⟨hannotations, hpieces⟩ := forall_mem_contents.mp h
  obtain ⟨hfields, hconstructors, hmethods⟩ := forall_mem_pieces.mp hpieces
  refine forall_mem_contents.mpr ⟨hannotations, forall_mem_pieces.mpr
    ⟨hfields, ?_, List.forall_mem_append.mpr ⟨hmethods, ?_⟩⟩⟩
  · rw [CompiledClass.canonical]
    dsimp only
    split
    · exact List.forall_mem_singleton.mpr
        (hP.tidy (Piece.tidy_generatedConstructor rfl
          (Statement.Tidy.block (List.forall_mem_nil _) (List.forall_mem_nil _))))
    · exact hconstructors
  · exact List.forall_mem_flatMap.mpr fun p _ m hm =>
      hP.tidy (tidy_missingAccessors p c.name c.methods m hm)

/-- Code that may be missing, with types. -/
theorem everywhere_inferCode (hP : Part.Persistent P) {code : Option Statement}
    (h : ∀ q ∈ code.toList.map Piece.ofStatement, q.Everywhere P) :
    ∀ q ∈ (code.map Statement.infer).toList.map Piece.ofStatement, q.Everywhere P := by
  cases code with
  | none => exact List.forall_mem_nil _
  | some s =>
    have hs : (Piece.ofStatement s).Everywhere P := h _ (.head _)
    exact List.forall_mem_singleton.mpr (Part.everywhere_infer hP.infer (.statement s) hs)

theorem Everywhere.infer (hP : Part.Persistent P) (h : c.Everywhere P) :
    c.infer.Everywhere P := by
  obtain ⟨hannotations, hpieces⟩ := forall_mem_contents.mp h
  obtain ⟨hfields, hconstructors, hmethods⟩ := forall_mem_pieces.mp hpieces
  refine forall_mem_contents.mpr ⟨hannotations, forall_mem_pieces.mpr
    ⟨List.forall_mem_map.mpr fun f hf => ?_, List.forall_mem_map.mpr fun x hx => ?_,
      List.forall_mem_map.mpr fun m hm => ?_⟩⟩
  · have hinner : ∀ q ∈ (Piece.field f).inner, q.Everywhere P :=
      fun q hq => (hfields f hf).inner hq
    obtain ⟨ha, hi⟩ := List.forall_mem_append.mp hinner
    refine .whole nofun (List.forall_mem_append.mpr ⟨ha, ?_⟩)
    cases hinitial : f.initial with
    | none => exact List.forall_mem_nil _
    | some e =>
      rw [hinitial] at hi
      have he : (Piece.ofExpression e).Everywhere P := hi _ (.head _)
      exact List.forall_mem_singleton.mpr (Part.everywhere_infer hP.infer (.expression e) he)
  · have hinner : ∀ q ∈ (Piece.constructor x).inner, q.Everywhere P :=
      fun q hq => (hconstructors x hx).inner hq
    obtain ⟨hap, hc⟩ := List.forall_mem_append.mp hinner
    exact .whole nofun (List.forall_mem_append.mpr ⟨hap, everywhere_inferCode hP hc⟩)
  · have hinner : ∀ q ∈ (Piece.method m).inner, q.Everywhere P :=
      fun q hq => (hmethods m hm).inner hq
    obtain ⟨hap, hc⟩ := List.forall_mem_append.mp hinner
    exact .whole nofun (List.forall_mem_append.mpr ⟨hap, everywhere_inferCode hP hc⟩)

theorem Everywhere.emit (hP : Part.Persistent P) (h : c.Everywhere P) : c.emit.Everywhere P := by
  obtain ⟨hannotations, hpieces⟩ := forall_mem_contents.mp h
  obtain ⟨hfields, hconstructors, hmethods⟩ := forall_mem_pieces.mp hpieces
  rw [CompiledClass.emit]
  split
  · exact h
  · refine forall_mem_contents.mpr
      ⟨hannotations, forall_mem_pieces.mpr ⟨hfields, hconstructors, ?_⟩⟩
    dsimp only
    split
    · exact hmethods
    · exact List.forall_mem_append.mpr
        ⟨hmethods, List.forall_mem_singleton.mpr (hP.tidy (tidy_metaClassMethod c.name))⟩

end CompiledClass

/-- What a module is made of is tidy if the script is, the annotations of its classes included. -/
theorem CompiledModule.tidy_contents_ofScript {unitName : String} {s : Script}
    {m : CompiledModule} (hs : s.Tidy) (h : ofScript unitName s = .ok m) :
    ∀ c ∈ m.classes, ∀ p ∈ c.contents, p.Tidy := by
  have hannotations : ∀ c ∈ m.classes, ∀ a ∈ c.annotations, (Piece.annotated a).Tidy := by
    -- the class of the script itself has no annotations, a declared one has its own
    refine forall_mem_ofScript h (fun c hc => ?_) fun d hd c hc a ha => ?_
    · rw [scriptClasses] at hc
      split at hc
      · cases hc
      · obtain rfl := List.mem_singleton.mp hc
        exact List.forall_mem_nil _
    · have hdeclaration : (Piece.declaration d).Tidy :=
        hs.root _ (List.mem_append_right _ (List.mem_map_of_mem hd))
      obtain ⟨members, -, hmade⟩ := bind_eq_ok.mp hc
      obtain rfl := Except.ok.inj hmade
      exact hdeclaration.inner (List.mem_append_left _ (List.mem_map_of_mem ha))
  exact fun c hc => CompiledClass.forall_mem_contents.mpr
    ⟨hannotations c hc, CompiledModule.ofScript_tidy hs h c hc⟩

/-! ### Compilations -/

namespace Compilation

variable {α : Type} {c : Compilation α} {name source : String}

/-- The pieces of the script, before it is converted, and everything in the classes of the module
afterwards. -/
def contents (c : Compilation α) : List Piece :=
  c.script.toList.flatMap Script.roots ++
    c.module.toList.flatMap fun m => m.classes.flatMap CompiledClass.contents

theorem mem_contents_of_mem_pieces {m : CompiledModule} {k : CompiledClass} {p : Piece}
    (hm : m ∈ c.module) (hk : k ∈ m.classes) (hp : p ∈ k.pieces) : p ∈ c.contents :=
  List.mem_append_right _ (List.mem_flatMap.mpr ⟨m, Option.mem_toList.mpr hm,
    List.mem_flatMap.mpr ⟨k, hk, List.mem_append_right _ hp⟩⟩)

/-- Up to conversion, all code is as it was read. -/
theorem everywhere_early (hP : Part.Persistent P) {phase : Phase} (hphase : phase ≤ .conversion)
    (h : (ready name source ([] : List (CompiledModule → CompiledClass → α))).performAll
      phase.upTo = (c, none)) : ∀ p ∈ c.contents, p.Everywhere P := by
  cases phase with
  | initialization =>
    obtain rfl := (Prod.mk.inj h).1
    exact List.forall_mem_nil _
  | parsing =>
    obtain ⟨script, hscript, rfl⟩ := performAll_parsing h
    simpa [contents, ready] using fun p hp => hP.tidy ((Script.parse_tidy hscript).root p hp)
  | conversion =>
    obtain ⟨script, m, hscript, hm, -⟩ := performAll_conversion h
    rw [performAll_conversion_ok hscript hm, Prod.mk.injEq] at h
    obtain ⟨rfl, -⟩ := h
    have htidy := CompiledModule.tidy_contents_ofScript (Script.parse_tidy hscript) hm
    simpa [contents, ready] using fun p k hk hp => hP.tidy (htidy k hk p hp)
  | _ => exact absurd hphase (by decide)

/-- Whatever phase a compilation has reached, a persistent property holds everywhere in it. -/
theorem everywhere_contents (hP : Part.Persistent P) {phase : Phase} {answers : List α}
    (h : (new name source : Compilation α).compile phase = (c, .ok answers)) :
    ∀ p ∈ c.contents, p.Everywhere P := by
  -- binding is the one step that asks for code as it was read, and comes before all others
  by_cases hphase : phase ≤ .conversion
  · exact everywhere_early hP hphase (compile_eq_ok h).1
  · have hlate : Phase.semanticAnalysis ≤ phase := Nat.lt_of_not_le hphase
    obtain ⟨hnone, script, m₀, m, hscript, hm₀, -, hm, hclasses⟩ := compile_script_classes hlate h
    have hclass : ∀ k ∈ m.classes, k.Everywhere P := by
      rw [hclasses]
      refine List.forall_mem_map.mpr fun k hk => ?_
      have hbound : (k.bound m₀.classNames).Everywhere P :=
        CompiledClass.everywhere_contents_bound hP m₀.classNames
          (CompiledModule.tidy_contents_ofScript (Script.parse_tidy hscript) hm₀ k hk)
      exact CompiledClass.completedTo_induction (fun _ h => h.canonical hP)
        (fun _ h => h.infer hP) (fun _ h => h.emit hP) hbound phase
    rw [contents, hnone, hm]
    simpa using fun p k hk hp => hclass k hk p hp

end Compilation

end ScriptOutline
