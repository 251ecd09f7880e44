/-
ScriptOutline/Proofs/Progression.lean

What calls on one compilation add up to.  Calls register operations and compile to phases, in
any order; compiling to an earlier phase, or to the same one again, is allowed.  As long as
every call succeeds, a compilation stands where a fresh one stands after it has been compiled
once, to the largest of the phases asked for (`Compilation.callAll_eq_fresh`), and a call to
compile answers with what the operations registered by then say of every class.

The reason is that the phases form one line.  A run over the phases up to a later one is a run
up to the earlier one, continued (`performAll_resume`), and a run over phases that are
completed does nothing (`performAll_completed`).  No phase looks at the operations
(`perform_withOperations`).
-/
import Mathlib.Data.List.Induction
import ScriptOutline.Compilation

namespace ScriptOutline

/-! ### Phases up to a target -/

namespace Phase

/-- The phases that a compilation to a target goes through. -/
def upTo (target : Phase) : List Phase := all.takeWhile (· ≤ target)

theorem mem_upTo {p target : Phase} : p ∈ upTo target ↔ p ≤ target := by
  have h : ∀ target ∈ all, ∀ p ∈ all, p ∈ upTo target ↔ p ≤ target := by decide
  exact h target (mem_all target) p (mem_all p)

theorem le_refl (p : Phase) : p ≤ p := Nat.le_refl p.number

theorem le_trans {p q r : Phase} (hpq : p ≤ q) (hqr : q ≤ r) : p ≤ r :=
  show p.number ≤ r.number from Nat.le_trans hpq hqr

theorem le_total (p q : Phase) : p ≤ q ∨ q ≤ p := Nat.le_total p.number q.number

/-- The way to a later phase leads past an earlier one, and on from there. -/
theorem upTo_split {low high : Phase} (h : low ≤ high) :
    upTo high = upTo low ++ (upTo high).filter (¬ · ≤ low) := by
  have hle : ∀ low ∈ all, ∀ high ∈ all, low ≤ high →
      upTo high = upTo low ++ (upTo high).filter (¬ · ≤ low) := by decide
  exact hle low (mem_all low) high (mem_all high) h

end Phase

namespace Compilation

variable {α β : Type}

/-! ### Phases do not look at the operations -/

/-- The same compilation with other operations. -/
def withOperations (c : Compilation α) (operations : List (CompiledModule → CompiledClass → β)) :
    Compilation β :=
  ⟨c.name, c.source, c.script, c.module, c.completed, operations⟩

theorem perform_withOperations (c : Compilation α)
    (operations : List (CompiledModule → CompiledClass → β)) (p : Phase) :
    (c.withOperations operations).perform p =
      ((c.perform p).1.withOperations operations, (c.perform p).2) := by
  obtain ⟨name, source, script, module, completed, _⟩ := c
  cases p with
  | initialization | output | finalization => rfl
  | canonicalization | instructionSelection | classGeneration => rfl
  | parsing =>
    simp only [perform, withOperations]
    cases Script.parse source <;> rfl
  | conversion =>
    cases script with
    | none => rfl
    | some script =>
      simp only [perform, withOperations]
      cases CompiledModule.ofScript name script <;> rfl
  | semanticAnalysis =>
    cases module with
    | none => rfl
    | some m => rfl

theorem performAll_withOperations (c : Compilation α)
    (operations : List (CompiledModule → CompiledClass → β)) (phases : List Phase) :
    (c.withOperations operations).performAll phases =
      ((c.performAll phases).1.withOperations operations, (c.performAll phases).2) := by
  induction phases generalizing c with
  | nil => rfl
  | cons p phases ih =>
    have hcompleted : (c.withOperations operations).hasCompleted p = c.hasCompleted p := rfl
    rw [performAll, performAll, hcompleted, perform_withOperations]
    split
    · exact ih c
    · obtain ⟨c', failure⟩ := c.perform p
      cases failure with
      | none => exact ih { c' with completed := some p }
      | some error => rfl

/-- No phase changes what is registered. -/
theorem performAll_operations (c : Compilation α) (phases : List Phase) :
    (c.performAll phases).1.operations = c.operations := by
  have h := performAll_withOperations c c.operations phases
  exact congrArg (fun r => r.1.operations) h

/-! ### Runs over the phases -/

variable {c c' : Compilation α} {p : Phase} {phases : List Phase}

theorem performAll_append (c : Compilation α) (xs ys : List Phase) :
    c.performAll (xs ++ ys) =
      match c.performAll xs with
      | (c', none) => c'.performAll ys
      | (c', some error) => (c', some error) := by
  induction xs generalizing c with
  | nil => rfl
  | cons p xs ih =>
    rw [List.cons_append, performAll, performAll]
    split
    · exact ih c
    · obtain ⟨c', failure⟩ := c.perform p
      cases failure with
      | none => exact ih { c' with completed := some p }
      | some error => rfl

/-- A run over completed phases does nothing. -/
theorem performAll_completed (h : ∀ p ∈ phases, c.hasCompleted p = true) :
    c.performAll phases = (c, none) := by
  induction phases with
  | nil => rfl
  | cons p phases ih =>
    obtain ⟨hp, hphases⟩ := List.forall_mem_cons.mp h
    rw [performAll, if_pos hp]
    exact ih hphases

/-- How a run over a phase and the ones after it succeeds. -/
theorem performAll_cons_succeeds (h : c.performAll (p :: phases) = (c', none)) :
    c.hasCompleted p = true ∧ c.performAll phases = (c', none) ∨
    c.hasCompleted p = false ∧ ∃ c₁, c.perform p = (c₁, none) ∧
      { c₁ with completed := some p }.performAll phases = (c', none) := by
  rw [performAll] at h
  split at h
  · next hp => exact .inl ⟨hp, h⟩
  · next hp =>
    refine .inr ⟨by simpa using hp, ?_⟩
    split at h
    · next c₁ hperform => exact ⟨c₁, hperform, h⟩
    · simp at h

/-- After a phase, the phases up to it are completed. -/
theorem hasCompleted_of_completed {q : Phase} (h : c.completed = some q) (hle : p ≤ q) :
    c.hasCompleted p = true := by
  rw [hasCompleted, h]
  exact decide_eq_true hle

/-- A phase that is run comes after all that are completed. -/
theorem le_of_hasCompleted {q : Phase} (hq : c.hasCompleted q = true)
    (hp : c.hasCompleted p = false) : q ≤ p := by
  rw [hasCompleted] at hq hp
  cases hc : c.completed with
  | none => simp [hc] at hq
  | some completed =>
    have hq : q ≤ completed := by simpa [hc] using hq
    have hp : ¬ p ≤ completed := by simpa [hc] using hp
    exact Phase.le_trans hq ((Phase.le_total p completed).resolve_left hp)

/-- What every phase of a list keeps, a run over the phases keeps. -/
theorem performAll_invariant {invariant : Compilation α → Prop}
    (hcompleted : ∀ c p, invariant c → invariant { c with completed := some p })
    (hperform : ∀ p ∈ phases, ∀ c c', invariant c → c.perform p = (c', none) → invariant c')
    (h : invariant c) (hrun : c.performAll phases = (c', none)) : invariant c' := by
  induction phases generalizing c with
  | nil =>
    obtain rfl : c = c' := by simpa [performAll] using hrun
    exact h
  | cons p phases ih =>
    obtain ⟨hp, hphases⟩ := List.forall_mem_cons.mp hperform
    rcases performAll_cons_succeeds hrun with ⟨-, hrest⟩ | ⟨-, c₁, hstep, hrest⟩
    · exact ih hphases h hrest
    · exact ih hphases (hcompleted c₁ p (hp c c₁ h hstep)) hrest

/-- A run that succeeds completes all its phases and takes none back. -/
theorem performAll_succeeds (h : c.performAll phases = (c', none)) :
    (∀ q, c.hasCompleted q = true → c'.hasCompleted q = true) ∧
      ∀ q ∈ phases, c'.hasCompleted q = true := by
  induction phases generalizing c with
  | nil =>
    obtain rfl : c = c' := by simpa [performAll] using h
    exact ⟨fun _ hq => hq, by simp⟩
  | cons p phases ih =>
    rcases performAll_cons_succeeds h with ⟨hp, hrest⟩ | ⟨hp, c₁, -, hrest⟩
    · obtain ⟨hkeep, hphases⟩ := ih hrest
      exact ⟨hkeep, List.forall_mem_cons.mpr ⟨hkeep p hp, hphases⟩⟩
    · obtain ⟨hkeep, hphases⟩ := ih hrest
      have hkept (q : Phase) (hle : q ≤ p) : c'.hasCompleted q = true :=
        hkeep q (hasCompleted_of_completed rfl hle)
      exact ⟨fun q hq => hkept q (le_of_hasCompleted hq hp),
        List.forall_mem_cons.mpr ⟨hkept p (Phase.le_refl p), hphases⟩⟩

/-! ### Going on and going back -/

variable {start : Compilation α} {low high : Phase}

/-- A compilation to a later phase is one to the earlier phase, continued. -/
theorem performAll_resume (h : start.performAll low.upTo = (c, none)) (hle : low ≤ high) :
    c.performAll high.upTo = start.performAll high.upTo := by
  have hself : c.performAll low.upTo = (c, none) :=
    performAll_completed (performAll_succeeds h).2
  rw [Phase.upTo_split hle, performAll_append, performAll_append, hself, h]

/-- A compilation to an earlier phase does nothing. -/
theorem performAll_back (h : start.performAll high.upTo = (c, none)) (hle : low ≤ high) :
    c.performAll low.upTo = (c, none) := by
  refine performAll_completed fun p hp => (performAll_succeeds h).2 p ?_
  exact Phase.mem_upTo.mpr (Phase.le_trans (Phase.mem_upTo.mp hp) hle)

/-! ### Calls on a compilation -/

/-- A call on a compilation: to register an operation, or to compile to a phase. -/
inductive Call (α : Type) where
  | register (operation : CompiledModule → CompiledClass → α)
  | compile (target : Phase)

/-- The phases asked for, in order. -/
def targets (calls : List (Call α)) : List Phase :=
  calls.filterMap fun
    | .register _ => none
    | .compile target => some target

/-- The operations registered, in order. -/
def registered (calls : List (Call α)) : List (CompiledModule → CompiledClass → α) :=
  calls.filterMap fun
    | .register operation => some operation
    | .compile _ => none

/-- The phase is one of the list, and none of the list comes after it. -/
def Largest (phases : List Phase) (top : Phase) : Prop :=
  top ∈ phases ∧ ∀ p ∈ phases, p ≤ top

/-- The state after a call, and the answer to it. -/
def call (c : Compilation α) : Call α → Compilation α × Except CompileError (List α)
  | .register operation => (c.addOperation operation, .ok [])
  | .compile target => c.compile target

/-- The state after calls, and the answers to all of them. -/
def callAll (c : Compilation α) :
    List (Call α) → Compilation α × List (Except CompileError (List α))
  | [] => (c, [])
  | call :: calls =>
    let (c, answer) := c.call call
    let (c, answers) := c.callAll calls
    (c, answer :: answers)

theorem callAll_append (c : Compilation α) (before after : List (Call α)) :
    c.callAll (before ++ after) =
      (((c.callAll before).1.callAll after).1,
        (c.callAll before).2 ++ ((c.callAll before).1.callAll after).2) := by
  induction before generalizing c with
  | nil => rfl
  | cons call before ih =>
    simp only [List.cons_append, callAll, ih]

theorem callAll_concat (c : Compilation α) (before : List (Call α)) (call : Call α) :
    (c.callAll (before ++ [call])).1 = ((c.callAll before).1.call call).1 := by
  rw [callAll_append]
  rfl

theorem length_callAll (c : Compilation α) (calls : List (Call α)) :
    (c.callAll calls).2.length = calls.length := by
  induction calls generalizing c with
  | nil => rfl
  | cons call calls ih => simp only [callAll, List.length_cons, ih]

/-- The answer to a call is that of the state before it. -/
theorem callAll_getElem? (c : Compilation α) (before after : List (Call α)) (call : Call α) :
    (c.callAll (before ++ call :: after)).2[before.length]? =
      some ((c.callAll before).1.call call).2 := by
  rw [callAll_append, ← length_callAll c before, List.getElem?_append_right (Nat.le_refl _),
    Nat.sub_self]
  rfl

/-- A call to compile that succeeds has run the phases, and answers with the visits. -/
theorem compile_eq_ok {c c' : Compilation α} {target : Phase} {answers : List α}
    (h : c.compile target = (c', .ok answers)) :
    c.performAll target.upTo = (c', none) ∧ answers = c'.visits := by
  rw [compile, ← Phase.upTo] at h
  split at h
  · next c₁ hrun =>
    obtain ⟨rfl, rfl⟩ : c₁ = c' ∧ c₁.visits = answers := by simpa using h
    exact ⟨hrun, rfl⟩
  · simp at h

/-- A state with an answer that is no error. -/
theorem exists_of_isOk {State Error Answer : Type} {r : State × Except Error Answer}
    (h : r.2.isOk = true) : ∃ state answer, r = (state, .ok answer) := by
  obtain ⟨state, error | answer⟩ := r
  · simp [Except.isOk, Except.toBool] at h
  · exact ⟨state, answer, rfl⟩

theorem visits_withOperations_nil (c : Compilation β) :
    (c.withOperations ([] : List (CompiledModule → CompiledClass → α))).visits = [] := by
  obtain ⟨name, source, script, m, completed, operations⟩ := c
  cases m <;> rfl

/-- The state is the one that compiling once, to the largest phase asked for, leads to.  Until
a phase is asked for, nothing has happened. -/
structure Caught (start : Compilation α) (calls : List (Call α)) (c : Compilation α) : Prop where
  operations : c.operations = registered calls
  state : targets calls = [] ∧ c = start.withOperations c.operations ∨
    ∃ top, Largest (targets calls) top ∧
      (start.withOperations c.operations).performAll top.upTo = (c, none)

namespace Caught

variable {start c c' : Compilation α} {calls : List (Call α)}

theorem register (h : Caught start calls c) (operation : CompiledModule → CompiledClass → α) :
    Caught start (calls ++ [.register operation]) (c.addOperation operation) := by
  have htargets : targets (calls ++ [.register operation]) = targets calls := by simp [targets]
  refine ⟨by simp [addOperation, h.operations, registered], ?_⟩
  rw [htargets]
  rcases h.state with ⟨hnone, hc⟩ | ⟨top, htop, hrun⟩
  · exact .inl ⟨hnone, congrArg (·.withOperations (c.operations ++ [operation])) hc⟩
  · refine .inr ⟨top, htop, ?_⟩
    have hother := performAll_withOperations (start.withOperations c.operations)
      (c.operations ++ [operation]) top.upTo
    rw [hrun] at hother
    exact hother

theorem compile {target : Phase} (h : Caught start calls c)
    (hrun : c.performAll target.upTo = (c', none)) :
    Caught start (calls ++ [.compile target]) c' := by
  have hoperations : c'.operations = c.operations := by
    have h := performAll_operations c target.upTo
    rwa [hrun] at h
  have htargets : targets (calls ++ [.compile target]) = targets calls ++ [target] := by
    simp [targets]
  refine ⟨by simp [hoperations, h.operations, registered], .inr ?_⟩
  rw [htargets, hoperations]
  rcases h.state with ⟨hnone, hc⟩ | ⟨top, ⟨hmem, hmax⟩, htop⟩
  · refine ⟨target, by simp [hnone, Largest, Phase.le_refl], ?_⟩
    rwa [hc] at hrun
  · rcases Phase.le_total target top with hle | hle
    · refine ⟨top, ⟨List.mem_append_left _ hmem, ?_⟩, ?_⟩
      · simpa [or_imp, forall_and, hle] using hmax
      · rw [performAll_back htop hle] at hrun
        rwa [← (Prod.mk.inj hrun).1]
    · refine ⟨target, ⟨by simp, ?_⟩, ?_⟩
      · simpa [or_imp, forall_and, Phase.le_refl] using fun p hp => Phase.le_trans (hmax p hp) hle
      · rwa [← performAll_resume htop hle]

end Caught

/-- As long as every call succeeds, the state is the one that compiling once leads to. -/
theorem callAll_caught {start : Compilation α} (hstart : start.operations = [])
    (calls : List (Call α)) (hok : ∀ answer ∈ (start.callAll calls).2, answer.isOk = true) :
    Caught start calls (start.callAll calls).1 := by
  induction calls using List.reverseRecOn with
  | nil => exact ⟨hstart, .inl ⟨rfl, rfl⟩⟩
  | append_singleton calls call ih =>
    have hbefore : ∀ answer ∈ (start.callAll calls).2, answer.isOk = true := fun answer hmem =>
      hok answer (by rw [callAll_append]; exact List.mem_append_left _ hmem)
    have hlast : ((start.callAll calls).1.call call).2.isOk = true :=
      hok _ (List.mem_of_getElem? (callAll_getElem? start calls [] call))
    rw [callAll_concat]
    have hcaught := ih hbefore
    cases call with
    | register operation => exact hcaught.register operation
    | compile target =>
      obtain ⟨c', answers, hcompile⟩ := exists_of_isOk hlast
      rw [hcompile]
      exact hcaught.compile (compile_eq_ok hcompile).1

/-- After calls that all succeed, each call to compile has left the module and the last phase
that compiling a fresh compilation once would have made, to the largest phase asked for until
then.  It answered with what each operation registered until then says of each class: operation
by operation, in the order of the classes, and nothing without a module. -/
theorem callAll_eq_fresh (name source : String) (calls : List (Call α))
    (hok : ∀ answer ∈ ((new name source : Compilation α).callAll calls).2, answer.isOk = true)
    (before : List (Call α)) (target : Phase) (after : List (Call α))
    (hcalls : calls = before ++ .compile target :: after) :
    let c := ((new name source : Compilation α).callAll (before ++ [.compile target])).1
    ∃ top, Largest (targets (before ++ [Call.compile (α := α) target])) top ∧
      (∃ fresh : Compilation α, (new name source).compile top = (fresh, .ok []) ∧
        c.module = fresh.module ∧ c.completed = fresh.completed) ∧
      ((new name source : Compilation α).callAll calls).2[before.length]? =
        some (.ok (match c.module with
          | none => []
          | some m => (registered before).flatMap fun operation =>
            m.classes.map (operation m))) := by
  intro c
  -- the calls until then all succeed too, so what is known of a state reached without an error
  -- holds of `c`
  have hprefix : before ++ [.compile target] <+: calls := ⟨after, by rw [hcalls]; simp⟩
  have hokPrefix : ∀ answer ∈ ((new name source : Compilation α).callAll
      (before ++ [.compile target])).2, answer.isOk = true := by
    intro answer hmem
    obtain ⟨rest, rfl⟩ := hprefix
    refine hok answer ?_
    rw [callAll_append]
    exact List.mem_append_left _ hmem
  have hcaught : Caught (new name source) (before ++ [.compile target]) c :=
    callAll_caught rfl _ hokPrefix
  have hoperations : c.operations = registered before := by
    rw [hcaught.operations]
    simp [registered]
  have hanswer : ((new name source : Compilation α).callAll calls).2[before.length]? =
      some (.ok c.visits) := by
    have hcall := callAll_getElem? (new name source) before after (.compile target)
    rw [← hcalls] at hcall
    obtain ⟨c', answers, hcompile⟩ := exists_of_isOk (hok _ (List.mem_of_getElem? hcall))
    -- the answer is what the operations say in the state that the call leaves
    have hstate : c = c' := by
      change ((new name source).callAll (before ++ [.compile target])).1 = c'
      rw [callAll_concat, hcompile]
    rw [hcall, hcompile, (compile_eq_ok hcompile).2, hstate]
  rcases hcaught.state with ⟨hnone, -⟩ | ⟨top, htop, hrun⟩
  · simp [targets] at hnone
  · -- the fresh compilation is `c` without its operations, which no phase looks at
    refine ⟨top, htop, ⟨c.withOperations [], ?_, rfl, rfl⟩, ?_⟩
    · have hfresh := performAll_withOperations
        ((new name source : Compilation α).withOperations c.operations)
        ([] : List (CompiledModule → CompiledClass → α)) top.upTo
      rw [hrun] at hfresh
      have hnew : (new name source : Compilation α).performAll top.upTo =
        (c.withOperations [], none) := hfresh
      have hvisits : (c.withOperations ([] : List (CompiledModule → CompiledClass → α))).visits =
        [] := visits_withOperations_nil c
      rw [compile, ← Phase.upTo, hnew]
      exact congrArg (fun answers => (_, Except.ok answers)) hvisits
    · cases hm : c.module <;> simp only [hanswer, visits, hoperations, hm]

/-- An operation is registered between two calls to compile. -/
def onward : List (Call String) :=
  [.compile .conversion, .register fun _ c => c.name, .compile .classGeneration]

theorem callAll_eq_fresh_onward_and_back :
    (∀ answer ∈ ((new "Script1" "class A \x7b\x7d x = 1").callAll
      (onward ++ [.compile .parsing])).2, answer.isOk = true) ∧
    ∃ top, Largest (targets (onward ++ [.compile .parsing])) top ∧
      ∃ fresh : Compilation String,
        (new "Script1" "class A \x7b\x7d x = 1").compile top = (fresh, .ok []) ∧
        ((new "Script1" "class A \x7b\x7d x = 1").callAll
          (onward ++ [.compile .parsing])).1.completed = fresh.completed := by
  have hok : ∀ answer ∈ ((new "Script1" "class A \x7b\x7d x = 1").callAll
      (onward ++ [.compile .parsing])).2, answer.isOk = true := by decide +kernel
  obtain ⟨top, htop, ⟨fresh, hfresh, -, hcompleted⟩, -⟩ :=
    callAll_eq_fresh "Script1" "class A \x7b\x7d x = 1" _ hok onward .parsing [] rfl
  exact ⟨hok, top, htop, fresh, hfresh, hcompleted⟩

end Compilation

end ScriptOutline
