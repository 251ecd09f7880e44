/-
ScriptOutline/Proofs/Defaults.lean

Default values and the resolution of names.  The default value of a parameter of a method or of a
constructor is visited like any other code of its class: if the module has no fault, it is settled,
and nothing is wrong with it.  The default value of a parameter of a closure is not visited, at any
depth.  It can be exchanged for any other one, before the resolution of names or after it, and that
changes neither what the rest of the code is resolved to nor whether there is a fault
(`CompiledModule.resolve_defaults`).  So a source is accepted whose closures name unknown classes
there (`CompiledModule.resolve_missingClass`).
-/
import ScriptOutline.Proofs.Indifference
import ScriptOutline.Proofs.Report
import ScriptOutline.Proofs.Settled
import ScriptOutline.Proofs.StaticCalls

namespace ScriptOutline

/-! ### Code that is visited -/

section

variable {k : ClassContext} {inStatic : Bool} {P : Part → Prop}

/-- What holds of the code of a member, however it is bound, holds of the member that is bound. -/
theorem forall_mem_memberCode_bound {ps : List Parameter} {code : Option Statement}
    (h : ∀ p ∈ memberCode ps code, ∀ env, P (p.bound k inStatic env)) (env env' : Scope) :
    ∀ q ∈ memberCode (boundParameters k inStatic env ps) (code.map (·.bound k inStatic env')),
      P q := by
  induction ps generalizing env with
  | nil =>
    cases code with
    | none => exact List.forall_mem_nil _
    | some s => exact List.forall_mem_singleton.mpr (h _ (.head _) env')
  | cons p ps ih =>
    obtain ⟨hp, hps⟩ := forall_mem_memberCode_cons h
    have hrest := ih hps (parameterEnvironment env [p])
    rw [boundParameters, memberCode]
    cases hd : p.defaultValue with
    | none => exact hrest
    | some e => exact List.forall_mem_cons.mpr ⟨hp e hd env, hrest⟩

/-- The same of a class. -/
theorem CompiledClass.forall_mem_analysedCode_bound {c : CompiledClass} {declared : List String}
    (h : ∀ p ∈ c.analysedCode, ∀ inStatic env, P (p.bound (.of declared c) inStatic env)) :
    ∀ q ∈ (c.bound declared).analysedCode, P q := by
  simp only [analysedCode, List.forall_mem_append, List.forall_mem_flatMap] at h
  obtain ⟨⟨hfields, hconstructors⟩, hmethods⟩ := h
  rw [bound_eq]
  simp only [analysedCode, List.forall_mem_append, List.forall_mem_flatMap, List.forall_mem_map]
  refine ⟨⟨fun f hf => ?_, fun x hx => ?_⟩, fun m hm => ?_⟩
  · have hf := hfields f hf
    rw [Field.bound]
    cases hi : f.initial with
    | none => exact List.forall_mem_nil _
    | some e =>
      rw [hi] at hf
      exact List.forall_mem_singleton.mpr (hf _ (.head _) _ _)
  · exact forall_mem_memberCode_bound (fun p hp => hconstructors x hx p hp false) _ _
  · exact forall_mem_memberCode_bound (fun p hp => hmethods m hm p hp m.modifiers.isStatic) _ _

end

/-- All code of a class that is visited, default values of its parameters included, is settled, and
nothing is wrong with it. -/
def CompiledClass.Sound (declared : List String) (c : CompiledClass) : Prop :=
  ∀ q ∈ c.analysedCode, q.AllSettled ∧ q.faults declared [] = []

theorem CompiledClass.sound_bound {c : CompiledClass} {declared : List String} (h : c.Tidy)
    (hfaults : c.faults declared = []) : (c.bound declared).Sound declared := by
  rw [faults, List.flatMap_eq_nil_iff] at hfaults
  refine forall_mem_analysedCode_bound fun p hp inStatic env => ?_
  obtain ⟨piece, hpiece, hinner⟩ := exists_mem_pieces hp
  have htidy : p.Tidy := (h piece hpiece).inner hinner
  exact ⟨p.allSettled_bound env [] htidy (hfaults p hp),
    (p.faults_bound env htidy declared []).trans (hfaults p hp)⟩

/-! ### Default values of closure parameters -/

/-- Other default values for the parameters of closures. -/
def Variation.defaults (value : Option Expression → Option Expression) : Variation :=
  { noted := some [], value }

/-- No body gets braces, and so the variation fits everywhere. -/
theorem CompiledClass.fits_defaults (value : Option Expression → Option Expression)
    (c : CompiledClass) : c.Fits (.defaults value) :=
  fun _ _ _ _ _ _ _ hbraces => nomatch hbraces

namespace CompiledModule

/-- The default values of closure parameters are left out by the resolution of names: whatever they
are, they stay as they are, and all else becomes the same, a fault included.  The other default
values are resolved: in a module without a fault, nothing is wrong with code that is visited. -/
theorem resolve_defaults {source unitName : String} {s : Script} {m : CompiledModule}
    (hs : Script.parse source = .ok s) (hm : ofScript unitName s = .ok m) :
    (∀ value, (m.varied (.defaults value)).resolve =
        (m.resolve.1.varied (.defaults value), m.resolve.2)) ∧
      (m.resolve.2 = none → ∀ c ∈ m.resolve.1.classes, c.Sound m.classNames) := by
  refine ⟨fun value => ?_, fun hnone => ?_⟩
  · obtain ⟨hfailure, hclasses⟩ := resolve_varied fun c (_ : c ∈ m.classes) => c.fits_defaults value
    have hmodule : (m.varied (.defaults value)).resolve.1 =
        m.resolve.1.varied (.defaults value) := by
      refine congrArg (CompiledModule.mk m.name) (List.ext_getElem? fun i => ?_)
      refine (hclasses i).trans ?_
      rw [List.getElem?_map]
      -- no names would be noted in blocks put in, before or after
      exact congrArg (Option.map · _) (funext fun c => congrArg c.varied (ite_self _))
    exact Prod.ext hmodule hfailure
  · have htidy := ofScript_tidy (Script.parse_tidy hs) hm
    rw [resolve_eq_map hnone]
    exact List.forall_mem_map.mpr fun c hc =>
      CompiledClass.sound_bound (htidy c hc) (faults_eq_nil hnone c hc)

/-- Default values of both kinds; the class that the closure names is not there. -/
def bothDefaults : String :=
  "class A \x7b def f(a = 1, b = a) \x7b def c = \x7b d = new Missing() -> d \x7d \x7d \x7d"

theorem resolve_defaults_bothDefaults :
    ∃ s m, Script.parse bothDefaults = .ok s ∧ ofScript "Script1" s = .ok m ∧
      m.resolve.2 = none ∧
      (m.varied (.defaults fun _ => none)).resolve =
        (m.resolve.1.varied (.defaults fun _ => none), m.resolve.2) ∧
      ∀ c ∈ m.resolve.1.classes, c.Sound m.classNames := by
  obtain ⟨s, m, hs, hm, hcheck⟩ :=
    exists_of_modulePasses (fun m => m.resolve.2 = none) bothDefaults (by decide +kernel)
  have hnone := of_decide_eq_true hcheck
  obtain ⟨hvaried, hsound⟩ := resolve_defaults hs hm
  exact ⟨s, m, hs, hm, hnone, hvaried _, hsound hnone⟩

end CompiledModule

/-- A closure makes an object of an unknown class if it is called without an argument. -/
def missingClass : String := "def c = \x7b a = new Missing() -> a \x7d"

/-- The default value of the only parameter of a closure that is the value of a declaration, at the
start of a block. -/
def Statement.closureDefault? : Statement → Option Expression
  | ⟨.block (⟨.expression ⟨.declaration _ ⟨.closure (some [p]) _, _, _⟩, _, _⟩, _⟩ :: _) _, _⟩ =>
    p.defaultValue
  | _ => none

/-- The class of a new object. -/
def Expression.created? : Expression → Option TypeRef
  | ⟨.construct target _ none, _, _⟩ => some target
  | _ => none

/-- The source is accepted, and the class stays unresolved. -/
theorem CompiledModule.resolve_missingClass :
    ∃ s m, Script.parse missingClass = .ok s ∧ ofScript "Script1" s = .ok m ∧
      m.resolve.2 = none ∧
      ∃ c ∈ m.resolve.1.classes, ∃ x ∈ c.methods, ∃ code ∈ x.code,
        ∃ e ∈ code.closureDefault?, ∃ t ∈ e.created?,
          t.resolved = none ∧ IsUnknownClass m.classNames t.name := by
  obtain ⟨s, m, hs, hm, hcheck⟩ := exists_of_modulePasses
    (fun m => m.resolve.2 = none ∧ ∃ c ∈ m.resolve.1.classes, ∃ x ∈ c.methods, ∃ code ∈ x.code,
      ∃ e ∈ code.closureDefault?, ∃ t ∈ e.created?,
        t.resolved = none ∧ IsUnknownClass m.classNames t.name)
    missingClass (by decide +kernel)
  obtain ⟨hnone, hmissing⟩ := of_decide_eq_true hcheck
  exact ⟨s, m, hs, hm, hnone, hmissing⟩

end ScriptOutline
