/-
ScriptOutline/Proofs/Passage.lean

What becomes of the classes of a script that compiles.  Conversion makes them, semantic analysis
binds each one, and no phase behind that looks at more than one class, or can fail.  So the
classes of the module, whatever later phase was asked for, are those of the conversion, each one
bound and then completed as far as that phase goes (`Compilation.compile_classes`).  A property of
single classes holds of the module if it holds of what is bound and each of the later phases
keeps it (`CompiledClass.completedTo_induction`).
-/
import ScriptOutline.Proofs.Retry

namespace ScriptOutline

/-! ### One class -/

/-- What the phases behind semantic analysis, up to the given one, make of a class. -/
def CompiledClass.completedTo (phase : Phase) (c : CompiledClass) : CompiledClass :=
  let c := if .canonicalization ≤ phase then c.canonical else c
  let c := if .instructionSelection ≤ phase then c.infer else c
  if .classGeneration ≤ phase then c.emit else c

/-- What each of these phases keeps, all of them keep. -/
theorem CompiledClass.completedTo_induction {P : CompiledClass → Prop} {c : CompiledClass}
    (hcanonical : ∀ k, P k → P k.canonical) (hinfer : ∀ k, P k → P k.infer)
    (hemit : ∀ k, P k → P k.emit) (h : P c) (phase : Phase) : P (c.completedTo phase) := by
  have hchange (later : Phase) (change : CompiledClass → CompiledClass) (k : CompiledClass)
      (hk : P k) (hchanged : P (change k)) : P (if later ≤ phase then change k else k) := by
    split
    · exact hchanged
    · exact hk
  have hcanonical := hchange .canonicalization canonical c h (hcanonical c h)
  have hinfer := hchange .instructionSelection infer _ hcanonical (hinfer _ hcanonical)
  exact hchange .classGeneration emit _ hinfer (hemit _ hinfer)

/-! ### Compilations -/

namespace Compilation

variable {α : Type} {c c' : Compilation α} {name source : String}

/-- The phases behind semantic analysis change each class on its own. -/
theorem performAll_completedTo {phase : Phase} {m : CompiledModule}
    (hcompleted : c.completed = some .semanticAnalysis) (hm : c.module = some m)
    (hrun : c.performAll ((Phase.upTo phase).filter (¬ · ≤ .semanticAnalysis)) = (c', none)) :
    c'.script = c.script ∧
      ∃ m', c'.module = some m' ∧ m'.classes = m.classes.map (CompiledClass.completedTo phase) := by
  obtain ⟨n, s, script, module, completed, operations⟩ := c
  obtain rfl : completed = some .semanticAnalysis := hcompleted
  obtain rfl : module = some m := hm
  obtain rfl := (Prod.mk.inj hrun).1
  cases phase
  case canonicalization => exact ⟨rfl, m.canonical, rfl, rfl⟩
  case instructionSelection => exact ⟨rfl, m.canonical.infer, rfl, List.map_map⟩
  case classGeneration | output | finalization =>
    refine ⟨rfl, m.canonical.infer.emit, rfl, ?_⟩
    exact (congrArg _ List.map_map).trans List.map_map
  all_goals exact ⟨rfl, m, rfl, (List.map_id _).symm⟩

/-- From semantic analysis on there is no script any more, and the classes of the module are those
of the script, bound and completed. -/
theorem compile_script_classes {phase : Phase} {answers : List α}
    (hphase : .semanticAnalysis ≤ phase)
    (h : (new name source : Compilation α).compile phase = (c, .ok answers)) :
    c.script = none ∧ ∃ script m₀ m, Script.parse source = .ok script ∧
      CompiledModule.ofScript name script = .ok m₀ ∧ m₀.resolve.2 = none ∧ c.module = some m ∧
      m.classes = m₀.classes.map fun k => (k.bound m₀.classNames).completedTo phase := by
  have hrun := (compile_eq_ok h).1
  -- the run is cut behind semantic analysis
  rw [Phase.upTo_split hphase, performAll_append] at hrun
  split at hrun
  · next c₁ hanalysed =>
    have hready : (ready name source []).performAll (Phase.upTo .semanticAnalysis) = (c₁, none) :=
      hanalysed
    obtain ⟨script, m₀, hscript, hm₀, hf, rfl⟩ := performAll_semanticAnalysis hready
    obtain ⟨hnone, m, hm, hclasses⟩ := performAll_completedTo rfl rfl hrun
    refine ⟨hnone, script, m₀, m, hscript, hm₀, hf, hm, ?_⟩
    rw [hclasses, CompiledModule.resolve_eq_map hf, List.map_map]
    rfl
  · simp at hrun

theorem compile_classes {phase : Phase} {answers : List α} (hphase : .semanticAnalysis ≤ phase)
    (h : (new name source : Compilation α).compile phase = (c, .ok answers)) :
    ∃ script m₀ m, Script.parse source = .ok script ∧
      CompiledModule.ofScript name script = .ok m₀ ∧ m₀.resolve.2 = none ∧ c.module = some m ∧
      m.classes = m₀.classes.map fun k => (k.bound m₀.classNames).completedTo phase :=
  (compile_script_classes hphase h).2

/-- The source compiles up to the phase, and its module passes a check. -/
def passes (check : CompiledModule → Bool) (source : String) (phase : Phase) : Bool :=
  match (new "Script1" source : Compilation Unit).compile phase with
  | (c, .ok []) => c.module.any check
  | _ => false

theorem exists_of_passes (check : CompiledModule → Bool) (source : String) (phase : Phase)
    (h : passes check source phase = true) :
    ∃ (c : Compilation Unit) (m : CompiledModule),
      (new "Script1" source).compile phase = (c, .ok []) ∧ c.module = some m ∧ check m = true := by
  rw [passes] at h
  split at h
  · next c hc =>
    obtain ⟨m, hm, hcheck⟩ := (Option.any_eq_true _ _).mp h
    exact ⟨c, m, hc, hm, hcheck⟩
  · simp at h

end Compilation

end ScriptOutline
