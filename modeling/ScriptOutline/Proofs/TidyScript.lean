/-
ScriptOutline/Proofs/TidyScript.lean

Tidy classes.  Conversion moves code from members to classes, and adds a little of its own.  What
it makes of a tidy script are tidy classes (`CompiledModule.ofScript_tidy`): all code in their
members is.
-/
import ScriptOutline.Proofs.Conversion
import ScriptOutline.Proofs.Tidy

namespace ScriptOutline

/-! ### Classes -/

/-- The members of a class, as pieces. -/
def CompiledClass.pieces (c : CompiledClass) : List Piece :=
  c.fields.map .field ++ c.constructors.map .constructor ++ c.methods.map .method

theorem CompiledClass.forall_mem_pieces {P : Piece → Prop} {c : CompiledClass} :
    (∀ p ∈ c.pieces, P p) ↔ (∀ f ∈ c.fields, P (.field f)) ∧
      (∀ x ∈ c.constructors, P (.constructor x)) ∧ ∀ m ∈ c.methods, P (.method m) := by
  simp only [pieces, List.forall_mem_append, List.forall_mem_map, and_assoc]

/-- All code in the members of the class is tidy. -/
def CompiledClass.Tidy (c : CompiledClass) : Prop := ∀ p ∈ c.pieces, p.Tidy

/-- The members that have been sorted are tidy. -/
structure Members.Tidy (m : Members) : Prop where
  field : ∀ f ∈ m.fields, (Piece.field f).Tidy
  constructor : ∀ c ∈ m.constructors, (Piece.constructor c).Tidy
  method : ∀ x ∈ m.methods, (Piece.method x).Tidy

namespace Members

variable {className : String} {m m' : Members} {member : Member}

theorem Tidy.nil : Tidy {} := ⟨by simp, by simp, by simp⟩

/-- A field differs from the member that declares it in its heading at most. -/
theorem Tidy.addField {f : Field} (h : m.Tidy) (hf : (Piece.field f).Tidy)
    (hadd : m.addField className f = .ok m') : m'.Tidy := by
  obtain ⟨-, rfl⟩ := addField_eq_ok hadd
  exact ⟨List.forall_mem_append.mpr ⟨h.field, List.forall_mem_singleton.mpr hf⟩, h.constructor,
    h.method⟩

theorem Tidy.add (h : m.Tidy) (hmember : member.piece.Tidy)
    (hadd : m.add className member = .ok m') : m'.Tidy := by
  cases member with
  | field f =>
    have hf : (Piece.field { f with owner := className }).Tidy :=
      .whole nofun fun q hq => hmember.inner hq
    exact h.addField hf hadd
  | property f =>
    obtain ⟨m₁, hfield, hproperty⟩ := bind_eq_ok.mp hadd
    obtain rfl := Except.ok.inj hproperty
    have hf : (Piece.field (backingField className f)).Tidy :=
      .whole nofun fun q hq => hmember.inner hq
    have h₁ : m₁.Tidy := h.addField hf hfield
    exact ⟨h₁.field, h₁.constructor, h₁.method⟩
  | constructor name c =>
    rw [Members.add] at hadd
    split at hadd
    · obtain rfl := Except.ok.inj hadd
      exact ⟨h.field, List.forall_mem_append.mpr
        ⟨h.constructor, List.forall_mem_singleton.mpr hmember⟩, h.method⟩
    · simp at hadd
  | method x =>
    obtain rfl := Except.ok.inj hadd
    exact ⟨h.field, h.constructor, List.forall_mem_append.mpr
      ⟨h.method, List.forall_mem_singleton.mpr hmember⟩⟩

theorem Tidy.addAll {members : List Member} (h : m.Tidy)
    (hmembers : ∀ x ∈ members, x.piece.Tidy) (hadd : m.addAll className members = .ok m') :
    m'.Tidy := by
  induction members generalizing m with
  | nil =>
    obtain rfl := Except.ok.inj hadd
    exact h
  | cons member members ih =>
    obtain ⟨hmember, hmembers⟩ := List.forall_mem_cons.mp hmembers
    obtain ⟨m₁, hfirst, hrest⟩ := bind_eq_ok.mp hadd
    exact ih (h.add hmember hfirst) hmembers hrest

end Members

/-- The code of a member that is analysed is directly inside it. -/
theorem allTidy_memberCode {ps : List Parameter} {code : Option Statement}
    (hps : ∀ q ∈ (defaultValues ps).map Piece.ofExpression, q.Tidy)
    (hcode : ∀ q ∈ code.toList.map Piece.ofStatement, q.Tidy) :
    AllTidy (memberCode ps code) :=
  .append (List.forall_mem_map.mpr fun _ he => hps _ (List.mem_map_of_mem he))
    (List.forall_mem_map.mpr fun _ hs => hcode _ (List.mem_map_of_mem hs))

namespace CompiledClass

variable {c : CompiledClass}

theorem Tidy.field (h : c.Tidy) {f : Field} (hf : f ∈ c.fields) : ∀ e ∈ f.initial, e.Tidy :=
  fun _ he => ((forall_mem_pieces.mp h).1 f hf).inner
    (List.mem_append_right _ (List.mem_map_of_mem (Option.mem_toList.mpr he)))

theorem Tidy.constructor (h : c.Tidy) {x : Constructor} (hx : x ∈ c.constructors) :
    AllTidy (memberCode x.parameters x.code) := by
  have htidy := (forall_mem_pieces.mp h).2.1 x hx
  refine allTidy_memberCode (fun q hq => htidy.inner ?_) (fun q hq => htidy.inner ?_)
  · exact List.mem_append_left _ (List.mem_append_right _ hq)
  · exact List.mem_append_right _ hq

theorem Tidy.method (h : c.Tidy) {m : Method} (hm : m ∈ c.methods) :
    AllTidy (memberCode m.parameters m.code) := by
  have htidy := (forall_mem_pieces.mp h).2.2 m hm
  refine allTidy_memberCode (fun q hq => htidy.inner ?_) (fun q hq => htidy.inner ?_)
  · exact List.mem_append_left _ (List.mem_append_right _ hq)
  · exact List.mem_append_right _ hq

theorem Tidy.of_members {m : Members} (h : m.Tidy)
    (hc : ⟨c.constructors, c.methods, c.fields, c.properties⟩ = m) : c.Tidy := by
  subst hc
  exact forall_mem_pieces.mpr ⟨h.field, h.constructor, h.method⟩

theorem ofDeclaration_tidy {d : ClassDeclaration}
    (hd : (Piece.declaration d).Tidy) (h : ofDeclaration d = .ok c) : c.Tidy := by
  obtain ⟨m, hm, hc⟩ := bind_eq_ok.mp h
  obtain rfl := Except.ok.inj hc
  refine Tidy.of_members (Members.Tidy.nil.addAll (fun x hx => hd.inner ?_) hm) rfl
  exact List.mem_append_right _ (List.mem_map_of_mem hx)

end CompiledClass

/-! ### The script class -/

theorem Statement.Tidy.block {statements : List Statement} (h : ∀ s ∈ statements, s.Tidy)
    (hpresent : ∀ s ∈ statements, (Part.statement s).Present) :
    (Statement.block statements).Tidy := .of_children hpresent (List.forall_mem_map.mpr h)

/-- The code of a member that is made is one statement at most. -/
theorem Statement.Tidy.block_singleton {s : Statement} (h : s.Tidy)
    (hpresent : (Part.statement s).Present) : (Statement.block [s]).Tidy :=
  .block (List.forall_mem_singleton.mpr h) (List.forall_mem_singleton.mpr hpresent)

theorem Expression.Tidy.asStatement {e : Expression} (h : e.Tidy) :
    (Statement.ofExpression e).Tidy := .of_children trivial (.cons h .nil)

/-- Code that was not written, in a member without default values. -/
theorem Piece.tidy_generatedMethod {name : String} {modifiers : Modifiers} {type : TypeRef}
    {ps : List Parameter} {code : Statement} (hps : defaultValues ps = []) (h : code.Tidy) :
    (Piece.method (.generated name modifiers type ps code)).Tidy := by
  refine .whole nofun (List.forall_mem_append.mpr ⟨?_, List.forall_mem_singleton.mpr h⟩)
  intro q hq
  simp [Method.generated, hps] at hq

theorem Piece.tidy_generatedConstructor {ps : List Parameter} {statements : List Statement}
    (hps : defaultValues ps = []) (h : (Statement.block statements).Tidy) :
    (Piece.constructor (.generated ps statements)).Tidy := by
  refine .whole nofun (List.forall_mem_append.mpr ⟨?_, List.forall_mem_singleton.mpr h⟩)
  intro q hq
  simp [Constructor.generated, hps] at hq

theorem tidy_mainMethod (className : String) : (Piece.method (mainMethod className)).Tidy := by
  refine Piece.tidy_generatedMethod rfl (Statement.Tidy.block_singleton ?_ rfl)
  have harguments : (Expression.unwritten (.sequence .arguments
      [.unwritten (.classRef (.named className)), .ofName "args"])).Tidy :=
    Expression.Tidy.written
      (fun _ => List.forall_mem_cons.mpr ⟨rfl, List.forall_mem_singleton.mpr rfl⟩)
      (.cons (Expression.Tidy.written trivial .nil)
        (.cons (Expression.Tidy.written trivial .nil) .nil))
  exact Expression.Tidy.asStatement (.written trivial (.cons harguments .nil))

theorem tidy_scriptConstructors : ∀ c ∈ scriptConstructors, (Piece.constructor c).Tidy := by
  refine List.forall_mem_cons.mpr ⟨?_, List.forall_mem_singleton.mpr ?_⟩
  · exact Piece.tidy_generatedConstructor rfl
      (Statement.Tidy.block (List.forall_mem_nil _) (List.forall_mem_nil _))
  · refine Piece.tidy_generatedConstructor rfl (Statement.Tidy.block_singleton ?_ rfl)
    have harguments :
        (Expression.unwritten (.sequence .arguments [.ofName "context"])).Tidy :=
      Expression.Tidy.written (fun _ => List.forall_mem_singleton.mpr rfl)
        (.cons (Expression.Tidy.written trivial .nil) .nil)
    exact Expression.Tidy.asStatement (.written trivial (.cons harguments .nil))

theorem scriptClass_tidy {name : String} {statements : List Statement} {methods : List Method}
    (hstatements : (Statement.block statements).Tidy)
    (hmethods : ∀ m ∈ methods, (Piece.method m).Tidy) :
    (scriptClass name statements methods).Tidy := by
  refine CompiledClass.forall_mem_pieces.mpr ⟨?_, tidy_scriptConstructors, ?_⟩
  · exact fun f hf => absurd hf List.not_mem_nil
  · refine List.forall_mem_cons.mpr ⟨tidy_mainMethod name, List.forall_mem_cons.mpr ⟨?_, hmethods⟩⟩
    exact Piece.tidy_generatedMethod rfl hstatements

theorem scriptClasses_tidy {unitName : String} {s : Script} (hs : s.Tidy) :
    ∀ c ∈ scriptClasses unitName s, c.Tidy := by
  intro c hc
  rw [scriptClasses] at hc
  split at hc
  · simp at hc
  · obtain rfl := List.mem_singleton.mp hc
    have hstatement {x : Statement} (hx : x ∈ s.statements) : Piece.ofStatement x ∈ s.roots :=
      List.mem_append_left _ (List.mem_append_left _ (List.mem_map_of_mem hx))
    refine scriptClass_tidy (Statement.Tidy.block ?_ ?_) fun x hx => hs.root (.method x) ?_
    · exact fun x hx => hs.root _ (hstatement hx)
    · exact fun x hx => hs.present _ (hstatement hx) _ rfl
    · exact List.mem_append_left _ (List.mem_append_right _ (List.mem_map_of_mem hx))

/-- The code of a module that is made from a tidy script is tidy. -/
theorem CompiledModule.ofScript_tidy {unitName : String} {s : Script} {m : CompiledModule}
    (hs : s.Tidy) (h : ofScript unitName s = .ok m) :
    ∀ c ∈ m.classes, c.Tidy :=
  forall_mem_ofScript h (scriptClasses_tidy hs) fun _ hd _ hc =>
    CompiledClass.ofDeclaration_tidy
      (hs.root _ (List.mem_append_right _ (List.mem_map_of_mem hd))) hc

end ScriptOutline
