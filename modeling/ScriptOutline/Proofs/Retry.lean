/-
ScriptOutline/Proofs/Retry.lean

What a compilation that has failed answers when it is asked again, and what it holds.  Three
phases can fail, and each leaves something else behind (`Compilation.Failed`):

* parsing leaves nothing, and reads the same source again;
* conversion has taken the script away: from then on there is neither a script nor a module, and
  no phase has anything to do (`run_drained`);
* semantic analysis leaves the module as far as it was resolved, which it resolves to itself, with
  the same fault (`CompiledModule.resolve_resolve`).

The states that calls lead to are therefore of four kinds (`Compilation.Standing`), and every
call leads from one of them to one of them.  So a failure is always one of the three, whatever was
called before.  `compile_error_again` says what later calls answer, `compile_error_module` which
module there is.
-/
import ScriptOutline.Proofs.Rebinding

namespace ScriptOutline

/-! ### Failures and their phases -/

/-- The phase that a compilation could not complete. -/
def CompileError.phase : CompileError → Phase
  | .parse _ => .parsing
  | .failure f => f.cause.phase

theorem Members.add_error {className : String} {m : Members} {member : Member} {f : Failure}
    (h : m.add className member = .error f) : f.cause.phase = .conversion := by
  have hfield {field : Field} {f : Failure} (h : m.addField className field = .error f) :
      f.cause.phase = .conversion := by
    rw [addField] at h
    split at h
    · obtain rfl := Except.error.inj h
      rfl
    · simp at h
  cases member with
  | field field => exact hfield h
  | property field =>
    cases hadd : m.addField className (backingField className field) with
    | error failure =>
      obtain rfl : failure = f := by simpa [Members.add, hadd, bind, Except.bind] using h
      exact hfield hadd
    | ok added => simp [Members.add, hadd, bind, Except.bind] at h
  | constructor name c =>
    rw [Members.add] at h
    split at h
    · simp at h
    · obtain rfl := Except.error.inj h
      rfl
  | method method => simp [Members.add] at h

/-- A step that fails: the first one of two, or the second one. -/
theorem bind_eq_error {ε α β : Type} {x : Except ε α} {f : α → Except ε β} {e : ε} :
    x >>= f = .error e ↔ x = .error e ∨ ∃ a, x = .ok a ∧ f a = .error e := by
  cases x with
  | error e' => simp [bind, Except.bind]
  | ok a => simp [bind, Except.bind]

theorem Members.addAll_error {className : String} {m : Members} {members : List Member}
    {f : Failure} (h : m.addAll className members = .error f) : f.cause.phase = .conversion := by
  induction members generalizing m with
  | nil => simp [addAll] at h
  | cons member members ih =>
    rcases bind_eq_error.mp h with h | ⟨m₁, -, h⟩
    · exact add_error h
    · exact ih h

theorem convertClasses_error {ds : List ClassDeclaration} {f : Failure}
    (h : convertClasses ds = .error f) : f.cause.phase = .conversion := by
  induction ds with
  | nil => simp [convertClasses] at h
  | cons d ds ih =>
    rcases bind_eq_error.mp h with h | ⟨c, -, h⟩
    · rcases bind_eq_error.mp h with h | ⟨m, -, h⟩
      · exact Members.addAll_error h
      · simp at h
    · rcases bind_eq_error.mp h with h | ⟨rest, -, h⟩
      · exact ih h
      · simp at h

/-- What is wrong with code on its own is for semantic analysis to find. -/
theorem Part.fault?_phase {declared : List String} {around : List Enclosure} {q : Part}
    {f : Failure} (h : q.fault? declared around = some f) : f.cause.phase = .semanticAnalysis := by
  have hif {p : Prop} [Decidable p] {cause : Cause} {span : Span}
      (hcause : cause.phase = .semanticAnalysis)
      (h : (if p then some (⟨cause, span⟩ : Failure) else none) = some f) :
      f.cause.phase = .semanticAnalysis := by
    split at h
    · obtain rfl := Option.some.inj h
      exact hcause
    · cases h
  rw [Part.fault?.eq_def] at h
  split at h
  case h_1 | h_2 | h_3 | h_4 | h_5 | h_6 => exact hif rfl h
  case h_7 => cases h

namespace CompiledModule

/-- A script that cannot be converted is refused by conversion. -/
theorem ofScript_error {unitName : String} {s : Script} {f : Failure}
    (h : ofScript unitName s = .error f) : f.cause.phase = .conversion := by
  rcases bind_eq_error.mp h with h | ⟨declared, -, h⟩
  · exact convertClasses_error h
  · dsimp only at h
    split at h
    · obtain rfl := Except.error.inj h
      rfl
    · simp at h

/-- A module that cannot be resolved is refused by semantic analysis. -/
theorem resolve_error {m : CompiledModule} {f : Failure} (h : m.resolve.2 = some f) :
    f.cause.phase = .semanticAnalysis := by
  have hfirst : (m.classes.flatMap (CompiledClass.faults m.classNames)).head? = some f :=
    (resolveClasses_failure m.classNames m.classes).symm.trans h
  obtain ⟨c, -, hc⟩ := List.mem_flatMap.mp (List.mem_of_mem_head? hfirst)
  obtain ⟨p, -, hp⟩ := List.mem_flatMap.mp hc
  obtain ⟨⟨around, q⟩, -, hx⟩ := List.mem_filterMap.mp hp
  exact Part.fault?_phase hx

end CompiledModule

/-! ### Runs from the start -/

namespace Compilation

variable {α : Type} {c c' c₁ start : Compilation α} {low high target : Phase}
  {name source : String} {operations : List (CompiledModule → CompiledClass → α)}
  {script : Script} {m : CompiledModule} {error : CompileError}

/-- A run that fails early fails in the same way when it is to go further. -/
theorem performAll_stop (h : start.performAll low.upTo = (c, some error)) (hle : low ≤ high) :
    start.performAll high.upTo = (c, some error) := by
  rw [Phase.upTo_split hle, performAll_append, h]

theorem performAll_stop_unique {error' : CompileError}
    (hstop : start.performAll low.upTo = (c₁, some error')) (hle : low ≤ high)
    (h : start.performAll high.upTo = (c, some error)) : c₁ = c ∧ error' = error := by
  simpa using (performAll_stop hstop hle).symm.trans h

/-- A run that succeeds has passed the earlier phases. -/
theorem performAll_before (h : start.performAll high.upTo = (c, none)) (hle : low ≤ high) :
    ∃ c₁, start.performAll low.upTo = (c₁, none) := by
  rw [Phase.upTo_split hle, performAll_append] at h
  split at h
  · next c₁ h₁ => exact ⟨c₁, h₁⟩
  · simp at h

/-- A run up to one more phase. -/
theorem performAll_next (h : start.performAll low.upTo = (c, none))
    (hupTo : high.upTo = low.upTo ++ [high]) (hnot : c.hasCompleted high = false) :
    start.performAll high.upTo =
      match c.perform high with
      | (c₁, none) => ({ c₁ with completed := some high }, none)
      | (c₁, some error) => (c₁, some error) := by
  rw [hupTo, performAll_append, h]
  simp only [performAll, hnot]
  rfl

theorem performAll_initialization :
    (ready name source operations).performAll (Phase.upTo .initialization) =
      ({ ready name source operations with completed := some .initialization }, none) := rfl

theorem performAll_parsing_error {fault : Grammar.Fault} (h : Script.parse source = .error fault) :
    (ready name source operations).performAll (Phase.upTo .parsing) =
      ({ ready name source operations with completed := some .initialization },
        some (.parse fault)) := by
  rw [performAll_next performAll_initialization rfl rfl]
  simp only [perform, ready, h]

theorem performAll_parsing_ok (h : Script.parse source = .ok script) :
    (ready name source operations).performAll (Phase.upTo .parsing) =
      ({ ready name source operations with script := some script, completed := some .parsing },
        none) := by
  rw [performAll_next performAll_initialization rfl rfl]
  simp only [perform, ready, h]

/-- The script is gone, although there is no module. -/
theorem performAll_conversion_error {f : Failure} (h : Script.parse source = .ok script)
    (hm : CompiledModule.ofScript name script = .error f) :
    (ready name source operations).performAll (Phase.upTo .conversion) =
      ({ ready name source operations with completed := some .parsing }, some (.failure f)) := by
  rw [performAll_next (performAll_parsing_ok h) rfl rfl]
  simp only [perform, ready, hm]

theorem performAll_conversion_ok (h : Script.parse source = .ok script)
    (hm : CompiledModule.ofScript name script = .ok m) :
    (ready name source operations).performAll (Phase.upTo .conversion) =
      ({ ready name source operations with module := some m, completed := some .conversion },
        none) := by
  rw [performAll_next (performAll_parsing_ok h) rfl rfl]
  simp only [perform, ready, hm]

/-- The module is left as far as it was resolved. -/
theorem performAll_semanticAnalysis_error {f : Failure} (h : Script.parse source = .ok script)
    (hm : CompiledModule.ofScript name script = .ok m) (hf : m.resolve.2 = some f) :
    (ready name source operations).performAll (Phase.upTo .semanticAnalysis) =
      ({ ready name source operations with
          module := some m.resolve.1, completed := some .conversion }, some (.failure f)) := by
  rw [performAll_next (performAll_conversion_ok h hm) rfl rfl]
  simp only [perform, ready, hf, Option.map_some]

theorem performAll_semanticAnalysis_ok (h : Script.parse source = .ok script)
    (hm : CompiledModule.ofScript name script = .ok m) (hf : m.resolve.2 = none) :
    (ready name source operations).performAll (Phase.upTo .semanticAnalysis) =
      ({ ready name source operations with
          module := some m.resolve.1, completed := some .semanticAnalysis }, none) := by
  rw [performAll_next (performAll_conversion_ok h hm) rfl rfl]
  simp only [perform, ready, hf, Option.map_none]

/-- A run through semantic analysis has resolved all names. -/
theorem performAll_semanticAnalysis
    (h : (ready name source operations).performAll (Phase.upTo .semanticAnalysis) = (c, none)) :
    ∃ script m, Script.parse source = .ok script ∧ CompiledModule.ofScript name script = .ok m ∧
      m.resolve.2 = none ∧ c = { ready name source operations with
        module := some m.resolve.1, completed := some .semanticAnalysis } := by
  obtain ⟨c₀, hconversion⟩ := performAll_before h (show Phase.conversion ≤ _ by decide)
  obtain ⟨script, m, hscript, hm, -⟩ := performAll_conversion hconversion
  cases hf : m.resolve.2 with
  | some f => simp [performAll_semanticAnalysis_error hscript hm hf] at h
  | none =>
    rw [performAll_semanticAnalysis_ok hscript hm hf, Prod.mk.injEq] at h
    exact ⟨script, m, hscript, hm, hf, h.1.symm⟩

/-- No phase behind semantic analysis fails. -/
theorem performAll_late {phases : List Phase} (h : ∀ p ∈ phases, ¬ p ≤ .semanticAnalysis) :
    (c.performAll phases).2 = none := by
  induction phases generalizing c with
  | nil => rfl
  | cons p phases ih =>
    obtain ⟨hp, hphases⟩ := List.forall_mem_cons.mp h
    have hperform : (c.perform p).2 = none := by
      cases p
      case initialization | parsing | conversion | semanticAnalysis =>
        exact absurd (by decide) hp
      all_goals rfl
    obtain ⟨c₁, hc₁⟩ : ∃ c₁, c.perform p = (c₁, none) := ⟨_, Prod.ext rfl hperform⟩
    rw [performAll]
    split
    · exact ih hphases
    · simp only [hc₁]
      exact ih hphases

/-! ### How a compilation fails -/

/-- The error that stops a compilation of a source, and the state that it leaves. -/
inductive Failed (name source : String)
    (operations : List (CompiledModule → CompiledClass → α)) :
    CompileError → Compilation α → Prop
  | parsing {fault : Grammar.Fault} : Script.parse source = .error fault →
    Failed name source operations (.parse fault)
      { ready name source operations with completed := some .initialization }
  | conversion {script : Script} {f : Failure} : Script.parse source = .ok script →
    CompiledModule.ofScript name script = .error f →
    Failed name source operations (.failure f)
      { ready name source operations with completed := some .parsing }
  | resolution {script : Script} {m : CompiledModule} {f : Failure} :
    Script.parse source = .ok script → CompiledModule.ofScript name script = .ok m →
    m.resolve.2 = some f →
    Failed name source operations (.failure f)
      { ready name source operations with
        module := some m.resolve.1, completed := some .conversion }

/-- A phase that is not reached lies behind the phase before it. -/
theorem Phase.le_of_not_le {p q target : Phase} (hnext : p.next = some q) (h : ¬ q ≤ target) :
    target ≤ p := by
  have hall : ∀ p ∈ Phase.all, ∀ q ∈ Phase.all, p.next = some q → ∀ target ∈ Phase.all,
      ¬ q ≤ target → target ≤ p := by decide
  exact hall p p.mem_all q q.mem_all hnext target target.mem_all h

/-- A run that goes through a phase and fails, although the run to the phase before it does not. -/
theorem performAll_reaches (hbefore : start.performAll low.upTo = (c₁, none))
    (hnext : low.next = some high) (h : start.performAll target.upTo = (c, some error)) :
    high ≤ target := by
  by_contra hnot
  obtain ⟨c₂, hc₂⟩ := performAll_before hbefore (Phase.le_of_not_le hnext hnot)
  simp [hc₂] at h

/-- A compilation from the start fails in one of three ways. -/
theorem performAll_error
    (h : (ready name source operations).performAll target.upTo = (c, some error)) :
    Failed name source operations error c ∧ error.phase ≤ target := by
  cases hscript : Script.parse source with
  | error fault =>
    have hle : .parsing ≤ target := performAll_reaches performAll_initialization rfl h
    obtain ⟨rfl, rfl⟩ := performAll_stop_unique (performAll_parsing_error hscript) hle h
    exact ⟨.parsing hscript, hle⟩
  | ok script =>
    cases hm : CompiledModule.ofScript name script with
    | error f =>
      have hle : .conversion ≤ target := performAll_reaches (performAll_parsing_ok hscript) rfl h
      obtain ⟨rfl, rfl⟩ := performAll_stop_unique (performAll_conversion_error hscript hm) hle h
      refine ⟨.conversion hscript hm, ?_⟩
      rwa [CompileError.phase, CompiledModule.ofScript_error hm]
    | ok m =>
      have hle : .semanticAnalysis ≤ target :=
        performAll_reaches (performAll_conversion_ok hscript hm) rfl h
      cases hf : m.resolve.2 with
      | some f =>
        obtain ⟨rfl, rfl⟩ :=
          performAll_stop_unique (performAll_semanticAnalysis_error hscript hm hf) hle h
        refine ⟨.resolution hscript hm hf, ?_⟩
        rwa [CompileError.phase, CompiledModule.resolve_error hf]
      | none =>
        -- no phase behind semantic analysis fails
        rw [Phase.upTo_split hle, performAll_append, performAll_semanticAnalysis_ok hscript hm hf]
          at h
        have hnone := performAll_late (by simp) |>.symm.trans (congrArg Prod.snd h)
        simp at hnone

/-! ### After a failure -/

/-- Going back to completed phases changes nothing. -/
theorem compile_back {p lower : Phase} (h : c.completed = some p) (hle : lower ≤ p) :
    c.compile lower = (c, .ok c.visits) := by
  have hrun : c.performAll lower.upTo = (c, none) := performAll_completed fun q hq =>
    hasCompleted_of_completed h (Phase.le_trans (Phase.mem_upTo.mp hq) hle)
  rw [compile, ← Phase.upTo, hrun]

/-- The error names the phase after the last one completed. -/
theorem Failed.completed (h : Failed name source operations error c) :
    ∃ p, c.completed = some p ∧ p.next = some error.phase := by
  cases h with
  | parsing => exact ⟨.initialization, rfl, rfl⟩
  | conversion _ hm =>
    exact ⟨.parsing, rfl, by rw [CompileError.phase, CompiledModule.ofScript_error hm]; rfl⟩
  | resolution _ _ hf =>
    exact ⟨.conversion, rfl, by rw [CompileError.phase, CompiledModule.resolve_error hf]; rfl⟩

theorem Failed.withOperations (h : Failed name source operations error c)
    (others : List (CompiledModule → CompiledClass → α)) :
    Failed name source others error (c.withOperations others) := by
  cases h with
  | parsing h => exact .parsing h
  | conversion h hm => exact .conversion h hm
  | resolution h hm hf => exact .resolution h hm hf

/-- A module that is resolved to itself is refused without a change. -/
theorem performAll_resolved {f : Failure} (hcompleted : c.completed = some .conversion)
    (hm : c.module = some m) (hresolve : m.resolve = (m, some f)) :
    c.performAll (Phase.upTo .semanticAnalysis) = (c, some (.failure f)) := by
  have hself : c.performAll (Phase.upTo .conversion) = (c, none) :=
    performAll_completed fun q hq => hasCompleted_of_completed hcompleted (Phase.mem_upTo.mp hq)
  have hperform : c.perform .semanticAnalysis = (c, some (.failure f)) := by
    obtain ⟨_, _, _, _, _, _⟩ := c
    obtain rfl : _ = some m := hm
    simp only [perform, hresolve, Option.map_some]
  have hnot : c.hasCompleted .semanticAnalysis = false := by
    rw [hasCompleted, hcompleted]
    rfl
  rw [performAll_next hself rfl hnot, hperform]

/-- What parsing and semantic analysis refuse, they refuse again, and nothing changes. -/
theorem Failed.run (h : Failed name source operations error c) (hphase : error.phase ≠ .conversion)
    (hle : error.phase ≤ target) : c.performAll target.upTo = (c, some error) := by
  cases h with
  | parsing hscript =>
    have hfirst : .initialization ≤ target :=
      Phase.le_trans (show .initialization ≤ Phase.parsing by decide) hle
    rw [performAll_resume performAll_initialization hfirst]
    exact performAll_stop (performAll_parsing_error hscript) hle
  | conversion _ hm => exact absurd (CompiledModule.ofScript_error hm) hphase
  | resolution hscript hm hf =>
    rename_i script m f
    -- the module that is left is resolved to itself, and with the same fault
    have hresolve : m.resolve.1.resolve = (m.resolve.1, some f) := by
      rw [CompiledModule.resolve_resolve
        (CompiledModule.ofScript_tidy (Script.parse_tidy hscript) hm), ← hf]
    rw [CompileError.phase, CompiledModule.resolve_error hf] at hle
    exact performAll_stop (performAll_resolved rfl rfl hresolve) hle

/-- The state of a compilation that has been compiled on after conversion has used up the
script: there is neither a script nor a module. -/
def drained (name source : String) (operations : List (CompiledModule → CompiledClass → α))
    (p : Phase) : Compilation α :=
  { ready name source operations with completed := some p }

/-- Without script and module, no phase does anything. -/
theorem performAll_drained (name source : String)
    (operations : List (CompiledModule → CompiledClass → α)) {p : Phase} (hp : .parsing ≤ p)
    (phases : List Phase) :
    ∃ q, (drained name source operations p).performAll phases =
        (drained name source operations q, none) ∧ p ≤ q ∧ (q = p ∨ q ∈ phases) := by
  induction phases generalizing p with
  | nil => exact ⟨p, rfl, Phase.le_refl p, .inl rfl⟩
  | cons x phases ih =>
    rw [performAll]
    split
    · obtain ⟨q, hq, hle, hmem⟩ := ih hp
      exact ⟨q, hq, hle, hmem.imp id (List.mem_cons_of_mem x)⟩
    · next hnot =>
      have hx : ¬ x ≤ p := fun hx => hnot (hasCompleted_of_completed rfl hx)
      have hperform : (drained name source operations p).perform x =
          (drained name source operations p, none) := by
        cases x
        case initialization | parsing => exact absurd (Phase.le_trans (by decide) hp) hx
        all_goals rfl
      obtain ⟨q, hq, hle, hmem⟩ :=
        ih (Phase.le_trans hp ((Phase.le_total p x).resolve_right hx))
      simp only [hperform]
      refine ⟨q, hq, Phase.le_trans ((Phase.le_total p x).resolve_right hx) hle, .inr ?_⟩
      rcases hmem with rfl | hmem
      · exact List.mem_cons_self
      · exact List.mem_cons_of_mem x hmem

/-- So every later phase is completed, with no class to show for it. -/
theorem run_drained (name source : String)
    (operations : List (CompiledModule → CompiledClass → α)) {p : Phase} (hp : .parsing ≤ p)
    (hle : p ≤ target) :
    (drained name source operations p).performAll target.upTo =
      (drained name source operations target, none) := by
  obtain ⟨q, hrun, hq, hmem⟩ := performAll_drained name source operations hp target.upTo
  have htarget : target ≤ q := by
    have h := (performAll_succeeds hrun).2 target (Phase.mem_upTo.mpr (Phase.le_refl target))
    simpa [hasCompleted, drained] using h
  have hqtarget : q ≤ target := by
    rcases hmem with rfl | hmem
    · exact hle
    · exact Phase.mem_upTo.mp hmem
  rwa [Phase.number_injective (Nat.le_antisymm hqtarget htarget)] at hrun

/-! ### What calls lead to -/

/-- The states that calls lead to: a compilation that nothing has been asked of, one that has
reached a phase, one that has failed, and one that has been compiled on after conversion had
failed. -/
inductive Standing (name source : String) : Compilation α → Prop
  | fresh {operations : List (CompiledModule → CompiledClass → α)} :
    Standing name source (ready name source operations)
  | reached {c : Compilation α} {p : Phase} :
    (ready name source c.operations).performAll p.upTo = (c, none) → Standing name source c
  | failed {c : Compilation α} {error : CompileError} :
    Failed name source c.operations error c → Standing name source c
  | drained {operations : List (CompiledModule → CompiledClass → α)} {p : Phase} :
    .parsing ≤ p → Standing name source (drained name source operations p)

theorem Standing.addOperation (h : Standing name source c)
    (operation : CompiledModule → CompiledClass → α) :
    Standing name source (c.addOperation operation) := by
  cases h with
  | fresh => exact .fresh
  | reached h =>
    rename_i p
    have hother := performAll_withOperations (ready name source c.operations)
      (c.operations ++ [operation]) p.upTo
    rw [h] at hother
    exact .reached hother
  | failed h => exact .failed (h.withOperations _)
  | drained hp => exact .drained hp

/-- A run to a phase leads to such a state again, or fails as a run from the start does. -/
def Continues (name source : String) (target : Phase) (c : Compilation α) : Prop :=
  (∃ c', c.performAll target.upTo = (c', none) ∧ Standing name source c') ∨
  ∃ c' error, c.performAll target.upTo = (c', some error) ∧
    Failed name source c'.operations error c' ∧ error.phase ≤ target

theorem continues_ready (name source : String)
    (operations : List (CompiledModule → CompiledClass → α)) (target : Phase) :
    Continues name source target (ready name source operations) := by
  have hoperations := performAll_operations (ready name source operations) target.upTo
  cases hrun : (ready name source operations).performAll target.upTo with
  | mk c' failure =>
    rw [hrun] at hoperations
    obtain rfl : c'.operations = operations := hoperations
    cases failure with
    | none => exact .inl ⟨c', hrun, .reached hrun⟩
    | some error => exact .inr ⟨c', error, hrun, performAll_error hrun⟩

theorem continues_reached {p : Phase}
    (h : (ready name source c.operations).performAll p.upTo = (c, none)) (target : Phase) :
    Continues name source target c := by
  rcases Phase.le_total target p with hle | hle
  · exact .inl ⟨c, performAll_back h hle, .reached h⟩
  · have hready := continues_ready name source c.operations target
    rwa [Continues, ← performAll_resume h hle] at hready

theorem continues_drained {p : Phase} (hp : .parsing ≤ p) (target : Phase) :
    Continues name source target (drained name source operations p) := by
  obtain ⟨q, hq, hle, -⟩ := performAll_drained name source operations hp target.upTo
  exact .inl ⟨_, hq, .drained (Phase.le_trans hp hle)⟩

theorem Failed.operations_eq (h : Failed name source operations error c) :
    c.operations = operations := by
  cases h <;> rfl

theorem Failed.continues (h : Failed name source operations error c) (target : Phase) :
    Continues name source target c := by
  by_cases hphase : error.phase = .conversion
  · cases h with
    | parsing => exact absurd hphase (show Phase.parsing ≠ .conversion by decide)
    | conversion => exact continues_drained (Phase.le_refl _) target
    | resolution _ _ hf =>
      exact absurd ((CompiledModule.resolve_error hf).symm.trans hphase) (by decide)
  · obtain rfl := h.operations_eq
    by_cases hle : error.phase ≤ target
    · exact .inr ⟨c, error, h.run hphase hle, h, hle⟩
    · obtain ⟨p, hp, hnext⟩ := h.completed
      have hback : c.performAll target.upTo = (c, none) := performAll_completed fun q hq =>
        hasCompleted_of_completed hp
          (Phase.le_trans (Phase.mem_upTo.mp hq) (Phase.le_of_not_le hnext hle))
      exact .inl ⟨c, hback, .failed h⟩

theorem Standing.continues (h : Standing name source c) (target : Phase) :
    Continues name source target c := by
  cases h with
  | fresh => exact continues_ready name source _ target
  | reached h => exact continues_reached h target
  | failed h => exact h.continues target
  | drained hp => exact continues_drained hp target

/-- Every call leads from such a state to such a state. -/
theorem Standing.call (h : Standing name source c) (call : Call α) :
    Standing name source (c.call call).1 := by
  cases call with
  | register operation => exact h.addOperation operation
  | compile target =>
    rw [Compilation.call, compile, ← Phase.upTo]
    rcases h.continues target with ⟨c', hrun, hc'⟩ | ⟨c', error, hrun, hc', -⟩
    · rw [hrun]
      exact hc'
    · rw [hrun]
      exact .failed hc'

theorem callAll_standing (name source : String) (calls : List (Call α)) :
    Standing name source ((new name source : Compilation α).callAll calls).1 := by
  induction calls using List.reverseRecOn with
  | nil => exact .fresh
  | append_singleton calls call ih =>
    rw [callAll_concat]
    exact ih.call call

/-- After any calls, a compilation fails as it does from the start. -/
theorem Standing.compile_error (h : Standing name source c)
    (hcompile : c.compile target = (c', .error error)) :
    Failed name source c'.operations error c' ∧ error.phase ≤ target := by
  rw [compile, ← Phase.upTo] at hcompile
  rcases h.continues target with ⟨c₁, hrun, -⟩ | ⟨c₁, error', hrun, hfailed⟩
  · simp [hrun] at hcompile
  · obtain ⟨rfl, rfl⟩ : c₁ = c' ∧ error' = error := by simpa [hrun] using hcompile
    exact hfailed

/-! ### Errors that stay -/

/-- What parsing and semantic analysis have refused stays refused: calls change nothing but the
operations. -/
theorem Failed.callAll (h : Failed name source operations error c)
    (hphase : error.phase ≠ .conversion) (calls : List (Call α)) :
    ∃ others, (c.callAll calls).1 = c.withOperations others := by
  induction calls using List.reverseRecOn with
  | nil => exact ⟨c.operations, rfl⟩
  | append_singleton calls call ih =>
    obtain ⟨others, hothers⟩ := ih
    rw [callAll_concat, hothers]
    cases call with
    | register operation => exact ⟨others ++ [operation], rfl⟩
    | compile target =>
      refine ⟨others, ?_⟩
      have hfailed := h.withOperations others
      rw [Compilation.call]
      by_cases hle : error.phase ≤ target
      · rw [compile, ← Phase.upTo, hfailed.run hphase hle]
      · obtain ⟨p, hp, hnext⟩ := hfailed.completed
        rw [compile_back hp (Phase.le_of_not_le hnext hle)]

/-- A failed call to compile leaves the phase before the failing one as the last completed.  If
parsing or semantic analysis has failed, then every later call that asks for the failing phase, or
for one behind it, answers with the same error and changes nothing, whatever is called in between.
If conversion has failed, then every later phase can be completed, without a module. -/
theorem compile_error_again (name source : String) (calls : List (Call α)) (target : Phase)
    (c : Compilation α) (error : CompileError)
    (h : ((new name source).callAll calls).1.compile target = (c, .error error)) :
    (∃ before, c.completed = some before ∧ before.next = some error.phase) ∧
    error.phase ≤ target ∧
    (error.phase ≠ .conversion → ∀ more later, error.phase ≤ later →
      (c.callAll more).1.compile later = ((c.callAll more).1, .error error) ∧
      (c.callAll more).1.completed = c.completed) ∧
    (error.phase = .conversion → c.module = none ∧ ∀ later, .conversion ≤ later →
      c.compile later = ({ c with completed := some later }, .ok [])) := by
  obtain ⟨hfailed, hle⟩ := (callAll_standing name source calls).compile_error h
  refine ⟨hfailed.completed, hle, fun hphase more later hlater => ?_, fun hphase => ?_⟩
  · obtain ⟨others, hothers⟩ := hfailed.callAll hphase more
    rw [hothers]
    refine ⟨?_, rfl⟩
    rw [compile, ← Phase.upTo, (hfailed.withOperations others).run hphase hlater]
  · generalize c.operations = operations at hfailed
    cases hfailed with
    | parsing => exact absurd hphase (show Phase.parsing ≠ .conversion by decide)
    | conversion =>
      -- conversion has used up the parsed script, and done again it finds none and does nothing
      refine ⟨rfl, fun later hlater => ?_⟩
      have hrun := run_drained name source operations (Phase.le_refl .parsing)
        (Phase.le_trans (by decide) hlater)
      show (drained name source operations .parsing).compile later = _
      rw [compile, ← Phase.upTo, hrun]
      rfl
    | resolution _ _ hf =>
      exact absurd ((CompiledModule.resolve_error hf).symm.trans hphase) (by decide)

/-- A stray `break`, and the error that it gives. -/
def strayBreak : CompileError := .failure ⟨.strayBreak, ⟨0, 5⟩⟩

/-- The state that comes with an answer, and what holds of it. -/
theorem exists_of_answer {β γ : Type} (r : β × γ) (P : β → Prop) {answer : γ}
    (h : r.2 = answer) (hP : P r.1) : ∃ b, r = (b, answer) ∧ P b := by
  obtain ⟨b, _⟩ := r
  exact ⟨b, congrArg (b, ·) h, hP⟩

/-- A stray `break` is reported whenever it matters. -/
theorem compile_error_again_break :
    ∃ c : Compilation Unit,
      ((new "Script1" "break").callAll [.compile .parsing]).1.compile .canonicalization =
        (c, .error strayBreak) ∧
      (c.compile .finalization).2 = .error strayBreak := by
  have hfirst : (((new "Script1" "break" : Compilation Unit).callAll [.compile .parsing]).1.compile
      .canonicalization).2 = .error strayBreak := by decide +kernel
  obtain ⟨c, hc, -⟩ := exists_of_answer _ (fun _ => True) hfirst trivial
  obtain ⟨-, -, hagain, -⟩ := compile_error_again "Script1" "break" [.compile .parsing]
    .canonicalization c strayBreak hc
  obtain ⟨hlast, -⟩ := hagain (by decide) [] .finalization (by decide)
  exact ⟨c, hc, congrArg Prod.snd hlast⟩

/-- Two classes of one name. -/
def twins : String := "class A {}\nclass A {}"

/-- Conversion refuses them once only: the second call succeeds. -/
theorem compile_error_vanishes :
    ∃ c : Compilation Unit,
      (new "Script1" twins).compile .conversion =
        (c, .error (.failure ⟨.duplicateClass "A", ⟨11, 21⟩⟩)) ∧
      (c.compile .conversion).2 = .ok [] ∧
      (c.compile .conversion).1.completed = some .conversion := by
  refine exists_of_answer ((new "Script1" twins : Compilation Unit).compile .conversion)
    (fun c => (c.compile .conversion).2 = .ok [] ∧
      (c.compile .conversion).1.completed = some .conversion) ?_ ⟨?_, ?_⟩
  all_goals decide +kernel

/-! ### Modules after a failure -/

/-- A run from the start, as a call to compile. -/
theorem compile_new {p : Phase} {fresh : Compilation α}
    (h : (ready name source []).performAll p.upTo = (fresh, none)) :
    (new name source).compile p = (fresh, .ok []) := by
  have hoperations := performAll_operations (ready name source ([] : List (CompiledModule →
    CompiledClass → α))) p.upTo
  rw [h] at hoperations
  have hvisits : fresh.visits = [] := by
    obtain ⟨_, _, _, m, _, _⟩ := fresh
    obtain rfl : _ = [] := hoperations
    cases m <;> rfl
  have hnew : (new name source : Compilation α).performAll p.upTo = (fresh, none) := h
  rw [compile, ← Phase.upTo, hnew]
  simp only [hvisits]

/-- After a failed call to compile, the phase reported as completed is one that a compilation from
the start completes.  The module is the one that it makes, and there is none below conversion; only
after semantic analysis has failed is it this module as far as its names could be resolved.  Calls
for earlier phases succeed, and hand out that module. -/
theorem compile_error_module (name source : String) (calls : List (Call α)) (target : Phase)
    (c : Compilation α) (error : CompileError)
    (h : ((new name source).callAll calls).1.compile target = (c, .error error)) :
    ∃ (p : Phase) (fresh : Compilation α), c.completed = some p ∧
      (new name source : Compilation α).compile p = (fresh, .ok []) ∧
      (error.phase ≠ .semanticAnalysis → c.module = fresh.module) ∧
      (error.phase = .semanticAnalysis →
        ∃ m, fresh.module = some m ∧ c.module = some m.resolve.1) ∧
      (¬ .conversion ≤ p → c.module = none) ∧
      ∀ lower, lower ≤ p → c.compile lower = (c, .ok c.visits) := by
  obtain ⟨hfailed, -⟩ := (callAll_standing name source calls).compile_error h
  generalize c.operations = operations at hfailed
  cases hfailed with
  | parsing =>
    refine ⟨.initialization, _, rfl, compile_new performAll_initialization, fun _ => rfl, ?_,
      fun _ => rfl, fun lower => compile_back rfl⟩
    exact fun hphase => absurd hphase (show Phase.parsing ≠ .semanticAnalysis by decide)
  | conversion hscript hm =>
    refine ⟨.parsing, _, rfl, compile_new (performAll_parsing_ok hscript), fun _ => rfl, ?_,
      fun _ => rfl, fun lower => compile_back rfl⟩
    exact fun hphase =>
      absurd ((CompiledModule.ofScript_error hm).symm.trans hphase) (by decide)
  | resolution hscript hm hf =>
    refine ⟨.conversion, _, rfl, compile_new (performAll_conversion_ok hscript hm), ?_,
      fun _ => ⟨_, rfl, rfl⟩, fun hnot => absurd (Phase.le_refl _) hnot,
      fun lower => compile_back rfl⟩
    exact fun hphase => absurd (CompiledModule.resolve_error hf) hphase

/-- The scopes of the methods of the module. -/
def scopes (c : Compilation α) : List (Option (List String)) :=
  match c.module with
  | none => []
  | some m => m.classes.flatMap fun k => k.methods.map Method.variableScope

theorem compile_error_module_break :
    ∃ c : Compilation Unit,
      ((new "Script1" "break").callAll []).1.compile .semanticAnalysis = (c, .error strayBreak) ∧
      ∃ fresh : Compilation Unit, (new "Script1" "break").compile .conversion = (fresh, .ok []) ∧
        ∃ m, fresh.module = some m ∧ c.module = some m.resolve.1 := by
  have herror : (((new "Script1" "break" : Compilation Unit).callAll []).1.compile
      .semanticAnalysis).2 = .error strayBreak := by decide +kernel
  have hcompleted : (((new "Script1" "break" : Compilation Unit).callAll []).1.compile
      .semanticAnalysis).1.completed = some .conversion := by decide +kernel
  obtain ⟨c, hc, hconversion⟩ :=
    exists_of_answer _ (fun c => c.completed = some .conversion) herror hcompleted
  obtain ⟨p, fresh, hp, hfresh, -, hmodule, -, -⟩ := compile_error_module "Script1" "break" []
    .semanticAnalysis c strayBreak hc
  obtain rfl : Phase.conversion = p := Option.some.inj (hconversion.symm.trans hp)
  exact ⟨c, hc, fresh, hfresh, hmodule (by decide)⟩

/-- After semantic analysis has failed, the methods have scopes, which they do not have after
conversion, although conversion is the last phase that has been completed. -/
theorem compile_error_leaves_scopes :
    ∃ c fresh : Compilation Unit,
      (new "Script1" "break").compile .semanticAnalysis = (c, .error strayBreak) ∧
      (c.completed = some .conversion ∧ c.scopes = [some ["args"], some []]) ∧
      (new "Script1" "break").compile .conversion = (fresh, .ok []) ∧
      fresh.scopes = [none, none] := by
  have herror : ((new "Script1" "break" : Compilation Unit).compile .semanticAnalysis).2 =
      .error strayBreak := by decide +kernel
  have hok : ((new "Script1" "break" : Compilation Unit).compile .conversion).2 = .ok [] := by
    decide +kernel
  obtain ⟨c, hc, hscopes⟩ := exists_of_answer _ (fun c => c.completed = some .conversion ∧
    c.scopes = [some ["args"], some []]) herror (by decide +kernel)
  obtain ⟨fresh, hfresh, hnone⟩ :=
    exists_of_answer _ (fun c => c.scopes = [none, none]) hok (by decide +kernel)
  exact ⟨c, fresh, hc, hscopes, hfresh, hnone⟩

end Compilation

end ScriptOutline
