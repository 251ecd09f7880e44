/-
ScriptOutline/Proofs/Termination.lean

Reading comes to an end, whatever text is read and wherever the reading starts.  All of it follows
from the rules being well-formed (`WellFormed`).

Two lists say what this comes to.  A `Phrase` of the grammar reads at least one character whenever
it succeeds, and so does a `Round` of a repetition.  The notions that contain one another ask for
each other only behind their own start: replies that agree behind a position agree from it on, one
level of nesting higher (`Inner.AlikeFrom.next`).  So all levels that are higher than the rest of a
text is long give the same replies (`level_alikeFrom`), and the bound on the nesting is never felt.
-/
import ScriptOutline.Proofs.WellFormedRules

namespace ScriptOutline.Grammar

open ScriptOutline.Grammar.Parser

/-! ### One more level of nesting -/

section Levels

variable {size start : Nat} {g g' : Inner}

/-- The notions with one more level of nesting. -/
def Inner.next (g : Inner) : Inner where
  classType := Grammar.classType g
  unary := Grammar.unary g
  expression := Grammar.expression g
  statement := Grammar.statement g

theorem Inner.Advancing.next (hg : g.Advancing size) : g.next.Advancing size where
  classType := (@wellFormed_classType false).advances hg
  unary := (@wellFormed_unary false).advances hg
  expression := (@wellFormed_expression false).advances hg
  statement := (@wellFormed_statement false).advances hg

/-- At a position the notions ask for each other only behind it. -/
theorem Inner.AlikeFrom.next (hg : g'.Advancing size)
    (h : Inner.AlikeFrom size (start + 1) g g') : Inner.AlikeFrom size start g.next g'.next where
  classType := (@wellFormed_classType false).alikeFrom hg h
  unary := (@wellFormed_unary false).alikeFrom hg h
  expression := (@wellFormed_expression false).alikeFrom hg h
  statement := (@wellFormed_statement false).alikeFrom hg h

theorem level_advancing (n : Nat) : (level n).Advancing size := by
  induction n with
  | zero => exact ⟨fun _ => .fail, fun _ => .fail, fun _ => .fail, fun _ => .fail⟩
  | succ n ih => exact ih.next

/-- Behind the end of the text nothing is asked for. -/
theorem Inner.AlikeFrom.of_size_lt (h : size < start) : Inner.AlikeFrom size start g g' :=
  have hnever {α : Type} {p p' : Parser α} : Grammar.AlikeFrom size start p p' :=
    fun c hc hsize => by omega
  ⟨hnever, hnever, hnever, hnever⟩

/-- What is left of the text bounds the levels that are needed. -/
theorem level_alikeFrom {m n : Nat} (hm : size < start + m) (hn : size < start + n) :
    Inner.AlikeFrom size start (level m) (level n) := by
  -- a level less is left for every position that the reading goes on
  induction n generalizing start m with
  | zero => exact .of_size_lt hn
  | succ n ih =>
    cases m with
    | zero => exact .of_size_lt hm
    | succ m => exact .next (level_advancing n) (ih (by omega) (by omega))

theorem script_alikeFrom {m n : Nat} (hm : size < start + m) (hn : size < start + n) :
    AlikeFrom size start (script (level m)) (script (level n)) := by
  have hbehind : Inner.AlikeFrom size (start + 1) (level m) (level n) :=
    level_alikeFrom (by omega) (by omega)
  exact (@wellFormed_script false).alikeFrom (level_advancing n) hbehind

end Levels

/-! ### What reads something -/

/-- The rules that read a piece of a script. -/
inductive Phrase : {α : Type} → (Inner → Parser α) → Prop
  | statement : Phrase statement
  | expression : Phrase expression
  | operand : Phrase unary
  | classType : Phrase classType
  | type : Phrase typeName
  | block : Phrase fun g => block g.statement
  | body : Phrase fun g => block (statement g)
  | argument : Phrase argument
  | mapEntry : Phrase mapEntry
  | suffix : Phrase suffix
  | fragment : Phrase fragment
  | annotation : Phrase annotationUse
  | member : Phrase member
  | method : Phrase method
  | classDeclaration : Phrase classDeclaration

/-- The tiers of operators that are not words, each over the operands that it has. -/
inductive Tier : (Inner → Parser Expression) → Parser String → Prop
  | power : Tier coerced (sign "**")
  | multiplicative : Tier power (signs "*" ["/", "%"])
  | additive : Tier multiplicative (orElse (sign "+") (sign "-"))
  | shift : Tier additive (orElse (sign "<<") (sign ">>"))
  | equality : Tier relational (signs "==~" ["==", "!=", "<=>", "=~"])
  | bitwiseAnd : Tier equality (sign "&")
  | bitwiseXor : Tier bitwiseAnd (sign "^")
  | bitwiseOr : Tier bitwiseXor (sign "|")
  | logicalAnd : Tier bitwiseOr (sign "&&")
  | logicalOr : Tier logicalAnd (sign "||")

/-- The items that stand in lists with commas. -/
inductive Listed : {α : Type} → (Inner → Parser α) → Prop
  | typeArgument : Listed Inner.classType
  | interface : Listed classType
  | parameter : Listed parameter
  | argument : Listed argument
  | element : Listed Inner.expression
  | mapEntry : Listed mapEntry
  | listItem : Listed fun g => orElse (spread g) g.expression
  | annotationMember : Listed annotationMember

/-- One round of a repetition: of a script, of its declarations and statements, of the operators
and suffixes of an expression, of a list, of a name, a literal or the blanks around them. -/
inductive Round : {α : Type} → (Inner → Parser α) → Prop
  | item : Round item
  | member : Round member
  | annotation : Round annotationUse
  | modifier : Round fun _ => modifier
  | statement : Round statement
  | innerStatement : Round Inner.statement
  | caseClause : Round caseClause
  | catchClause : Round catchClause
  | suffix : Round suffix
  | operation {operand : Inner → Parser Expression} {operator : Parser String} :
      Tier operand operator → Round fun g => operation (operand g) operator
  | comparison : Round fun g =>
      orElse
        (do
          let operation ← firstOf (sign "<=") [sign ">=", sign "<", sign ">", wordSign "in"]
          let right ← range g
          pure (operation, right))
        (instanceTest g)
  | coercion : Round fun g => (do
      let (target, span) ← spanned do
        keyword "as"
        typeName g
      pure (target, span.stop))
  | index : Round fun g => between "[" g.expression "]"
  | dimension : Round fun _ => emptyBrackets
  | further {α : Type} {item : Inner → Parser α} :
      Listed item → Round fun g => (do symbol ","; item g)
  | qualifier : Round fun _ => (do exactly ['.']; identifier)
  | pathPart : Round fun _ => (do exactly ['.']; spanned word)
  | fragment : Round fragment
  | quotedChar : Round fun _ => orElse (satisfy fun c => c != '\'' && c != '\\') escape
  | patternChar : Round fun _ =>
      orElse (do exactly ['\\', '/']; pure '/') (satisfy fun c => c != '/')
  | char (f : Char → Bool) : Round fun _ => satisfy f
  | filling : Round fun _ =>
      orElse (orElse (do let _ ← satisfy isBlank; pure ()) lineComment) blockComment

section WellFormed

variable {α : Type} {rule : Inner → Parser α}

theorem Phrase.wellFormed (h : Phrase rule) : WellFormed true true rule := by
  cases h with
  | statement => exact wellFormed_statement
  | expression => exact wellFormed_expression
  | operand => exact wellFormed_unary
  | classType => exact wellFormed_classType
  | type => exact wellFormed_typeName
  | block => exact wellFormed_block .statement
  | body => exact wellFormed_block wellFormed_statement
  | argument => exact wellFormed_argument
  | mapEntry => exact wellFormed_mapEntry
  | suffix => exact wellFormed_suffix
  | fragment => exact wellFormed_fragment
  | annotation => exact wellFormed_annotationUse
  | member => exact wellFormed_member
  | method => exact wellFormed_method
  | classDeclaration => exact wellFormed_classDeclaration

theorem Tier.wellFormed {operand : Inner → Parser Expression} {operator : Parser String}
    (h : Tier operand operator) : WellFormed true true fun g => operation (operand g) operator := by
  cases h with
  | power => exact wellFormed_operation wellFormed_coerced (wellFormed_sign rfl)
  | multiplicative => exact wellFormed_operation wellFormed_power (wellFormed_signs _ _ rfl)
  | additive =>
    exact wellFormed_operation wellFormed_multiplicative
      (.orElse (wellFormed_sign rfl) (wellFormed_sign rfl))
  | shift =>
    exact wellFormed_operation wellFormed_additive
      (.orElse (wellFormed_sign rfl) (wellFormed_sign rfl))
  | equality => exact wellFormed_operation wellFormed_relational (wellFormed_signs _ _ rfl)
  | bitwiseAnd => exact wellFormed_operation wellFormed_equality (wellFormed_sign rfl)
  | bitwiseXor => exact wellFormed_operation wellFormed_bitwiseAnd (wellFormed_sign rfl)
  | bitwiseOr => exact wellFormed_operation wellFormed_bitwiseXor (wellFormed_sign rfl)
  | logicalAnd => exact wellFormed_operation wellFormed_bitwiseOr (wellFormed_sign rfl)
  | logicalOr => exact wellFormed_operation wellFormed_logicalAnd (wellFormed_sign rfl)

theorem Listed.wellFormed (h : Listed rule) : WellFormed true true rule := by
  cases h with
  | typeArgument => exact .classType
  | interface => exact wellFormed_classType
  | parameter => exact wellFormed_parameter
  | argument => exact wellFormed_argument
  | element => exact .expression
  | mapEntry => exact wellFormed_mapEntry
  | listItem => exact wellFormed_listItem
  | annotationMember => exact wellFormed_annotationMember

theorem Round.wellFormed (h : Round rule) : WellFormed true true rule := by
  cases h with
  | item => exact wellFormed_item
  | member => exact wellFormed_member
  | annotation => exact wellFormed_annotationUse
  | modifier => exact wellFormed_modifier
  | statement => exact wellFormed_statement
  | innerStatement => exact .statement
  | caseClause => exact wellFormed_caseClause
  | catchClause => exact wellFormed_catchClause
  | suffix => exact wellFormed_suffix
  | operation h => exact h.wellFormed
  | comparison => exact wellFormed_comparison
  | coercion => exact wellFormed_coercion
  | index => exact wellFormed_index
  | dimension => exact wellFormed_emptyBrackets
  | further h => exact .next (wellFormed_symbol rfl) h.wellFormed
  | qualifier => exact wellFormed_qualifier
  | pathPart => exact wellFormed_pathPart
  | fragment => exact wellFormed_fragment
  | quotedChar => exact wellFormed_quotedChar
  | patternChar => exact wellFormed_patternChar
  | char f => exact .satisfy f
  | filling => exact wellFormed_filling

end WellFormed

/-! ### Reading ends -/

/-- Wherever the parser succeeds, it ends behind the position at which it started, by as many
characters as are no longer left. -/
def Progresses {α : Type} (p : Parser α) : Prop :=
  ∀ c x c' alt, p c = .done x c' alt →
    c.pos < c'.pos ∧ c'.pos + c'.rest.length = c.pos + c.rest.length

theorem WellFormed.progresses {α : Type} {behind : Bool} {rule : Inner → Parser α}
    (h : WellFormed behind true rule) (n : Nat) : Progresses (rule (level n)) := by
  intro c x c' alt hdone
  obtain ⟨-, hsize, hlt⟩ := h.advances (level_advancing n) c.pos c.rest rfl x c' alt hdone
  exact ⟨hlt, hsize⟩

/-- At every level of nesting, in every text and from every position on: a phrase that is read ends
behind its start; so does a round of a repetition, and the repetition reads at least one character
for each item and ends where a round fails; what the notions answer at a position depends only on
what they answer behind it; and what is left of the text bounds the levels of nesting that are
needed. -/
theorem level_progress (n : Nat) :
    (∀ {α : Type} {rule : Inner → Parser α}, Phrase rule → Progresses (rule (level n))) ∧
    (∀ {α : Type} {round : Inner → Parser α}, Round round →
      Progresses (round (level n)) ∧
      ∀ c xs c' alt, many (round (level n)) c = .done xs c' alt →
        c.pos + xs.length ≤ c'.pos ∧ ∃ fault, round (level n) c' = .fail fault) ∧
    (∀ size start (g : Inner), Inner.AlikeFrom size (start + 1) g (level n) →
      Inner.AlikeFrom size start g.next (level (n + 1))) ∧
    ∀ size start m, size < start + m → size < start + n →
      Inner.AlikeFrom size start (level m) (level n) ∧
      AlikeFrom size start (script (level m)) (script (level n)) := by
  refine ⟨fun h => h.wellFormed.progresses n, fun h => ?_, ?_, ?_⟩
  · refine ⟨h.wellFormed.progresses n, fun c xs c' alt hmany => ?_⟩
    exact rounds_of_many (fun _ => h.wellFormed.advances (level_advancing n)) hmany
  · intro size start g hbehind
    exact hbehind.next (level_advancing n)
  · intro size start m hm hn
    exact ⟨level_alikeFrom hm hn, script_alikeFrom hm hn⟩

/-- Of `a.b[1)`, read from its second character on, one suffix is read, and the index behind it is
not closed. -/
theorem level_progress_openIndex :
    (∃ x c' alt, suffix (level 6) ⟨1, ['.', 'b', '[', '1', ')']⟩ = .done x c' alt ∧ 1 < c'.pos) ∧
    (∃ xs c' alt, many (suffix (level 6)) ⟨1, ['.', 'b', '[', '1', ')']⟩ = .done xs c' alt ∧
      1 + xs.length ≤ c'.pos ∧ ∃ fault, suffix (level 6) c' = .fail fault) ∧
    script (level 7) ⟨0, ['a', '.', 'b', '[', '1', ')']⟩ =
      script (level 8) ⟨0, ['a', '.', 'b', '[', '1', ')']⟩ := by
  obtain ⟨hphrase, hround, -, -⟩ := level_progress 6
  obtain ⟨-, -, -, hlevels⟩ := level_progress 8
  have hone : suffix (level 6) ⟨1, ['.', 'b', '[', '1', ')']⟩ =
      .done (.member "b" .plain none, 3) ⟨3, ['[', '1', ')']⟩ _ := rfl
  have hall : many (suffix (level 6)) ⟨1, ['.', 'b', '[', '1', ')']⟩ =
      .done [(.member "b" .plain none, 3)] ⟨3, ['[', '1', ')']⟩ _ := rfl
  refine ⟨⟨_, _, _, hone, (hphrase .suffix _ _ _ _ hone).1⟩,
    ⟨_, _, _, hall, (hround .suffix).2 _ _ _ _ hall⟩, ?_⟩
  exact (hlevels 6 0 7 (by decide) (by decide)).2 _ (Nat.le_refl _) rfl

end ScriptOutline.Grammar

namespace ScriptOutline

open ScriptOutline.Grammar

/-- A source is read as at every level of nesting that is higher than the source is long. -/
theorem Script.parse_eq_level (source : String) (m : Nat) (hm : source.toList.length < m) :
    Script.parse source = match script (level m) (.start source.toList) with
      | .done script _ _ => .ok script
      | .fail fault => .error fault := by
  have hsame : AlikeFrom source.toList.length 0 (script (level m))
      (script (level (source.toList.length + 1))) := script_alikeFrom (by omega) (by omega)
  rw [hsame (.start source.toList) (Nat.le_refl _) (Nat.zero_add _)]
  rfl

end ScriptOutline
