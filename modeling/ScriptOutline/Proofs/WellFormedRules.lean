/-
ScriptOutline/Proofs/WellFormedRules.lean

All rules of the grammar are well-formed (`WellFormed`).  There is one derivation for each rule,
and it follows the rule.  An argument and an item of a list may be an expression from their start
on, and so these two are well-formed only behind something, as they stand behind a bracket.  Every
other rule is well-formed wherever it stands.
-/
import ScriptOutline.Grammar.Declaration
import ScriptOutline.Proofs.WellFormed

namespace ScriptOutline.Grammar

open ScriptOutline.Grammar.Parser

section Rules

variable {behind : Bool}

/-! ### Types -/

/-- A further part of a dotted name. -/
theorem wellFormed_qualifier : WellFormed behind true fun _ => (do exactly ['.']; identifier) :=
  .next (.exactly (by simp)) wellFormed_identifier

theorem wellFormed_classType : WellFormed behind true classType := by
  have harguments : WellFormed true false fun g =>
      separated g.classType (symbol ",") .refused := .separated .classType (wellFormed_symbol rfl)
  exact .after wellFormed_identifier fun _ => .bind (.many wellFormed_qualifier) fun _ =>
    .bind (.optional (.between rfl rfl harguments)) fun _ => .pure _

theorem wellFormed_emptyBrackets : WellFormed behind true fun _ => emptyBrackets :=
  .next (wellFormed_symbol rfl) (wellFormed_symbol rfl)

theorem wellFormed_typeName : WellFormed behind true typeName :=
  .after wellFormed_classType fun _ => .bind (.many wellFormed_emptyBrackets) fun _ => .pure _

theorem wellFormed_declaredType : WellFormed behind true declaredType :=
  .orElse (wellFormed_wordValue _ _) wellFormed_typeName

/-! ### Literals -/

theorem wellFormed_interpolatedExpression : WellFormed behind true interpolatedExpression :=
  .after (.exactly (by simp)) fun _ => .bind .expression fun _ =>
    .bind (.exactly (by simp)) fun _ => .pure _

/-- A further part of a path in a text. -/
theorem wellFormed_pathPart : WellFormed behind true fun _ => (do exactly ['.']; spanned word) :=
  .next (.exactly (by simp)) (.spanned wellFormed_word)

theorem wellFormed_interpolatedPath : WellFormed behind true fun _ => interpolatedPath :=
  .after (.exactly (by simp)) fun _ => .bind (.spanned wellFormed_word) fun ⟨_, _⟩ =>
    .bind (.many wellFormed_pathPart) fun _ => .pure _

theorem wellFormed_fragment : WellFormed behind true fragment :=
  .choice (.map _ wellFormed_interpolatedExpression)
    (.cons (.map _ wellFormed_interpolatedPath)
      (.cons (.map _ wellFormed_escape) (.cons (.map _ (.satisfy _)) .nil)))

theorem wellFormed_doubleQuoted : WellFormed behind true doubleQuoted := by
  refine .after (.spanned (.after (.exactly (by simp)) fun _ => ?_)) fun ⟨_, _⟩ => .pure _
  exact .bind (.many wellFormed_fragment) fun _ => .bind (.exactly (by simp)) fun _ => .pure _

theorem wellFormed_regex : WellFormed behind true fun _ => regex :=
  .after (.spanned wellFormed_pattern) fun ⟨_, _⟩ => .pure _

theorem wellFormed_constantOf {p : Parser Constant} (hp : WellFormed behind true fun _ => p) :
    WellFormed behind true fun _ => constantOf p :=
  .after (.spanned hp) fun ⟨_, _⟩ => .pure _

theorem wellFormed_namedConstant : WellFormed behind true fun _ => namedConstant :=
  .orElse (.orElse (wellFormed_wordValue _ _) (wellFormed_wordValue _ _))
    (wellFormed_wordValue _ _)

theorem wellFormed_literal : WellFormed behind true literal :=
  .choice (wellFormed_constantOf (.token wellFormed_number))
    (.cons (wellFormed_constantOf (.map _ (.token wellFormed_quoted)))
      (.cons (.token wellFormed_doubleQuoted) (.cons (.token wellFormed_regex)
        (.cons (wellFormed_constantOf wellFormed_namedConstant) .nil))))

/-! ### Parameters and closures -/

theorem wellFormed_initialValue : WellFormed behind false initialValue :=
  .optional (.next (wellFormed_symbol rfl) .expression)

theorem wellFormed_typedName : WellFormed behind true typedName :=
  .orElse
    (.after wellFormed_declaredType fun _ => .bind wellFormed_identifier fun _ => .pure _)
    (.after wellFormed_identifier fun _ => .pure _)

theorem wellFormed_parameter : WellFormed behind true parameter :=
  .after wellFormed_typedName fun ⟨_, _⟩ => .bind wellFormed_initialValue fun _ => .pure _

theorem wellFormed_closure : WellFormed behind true closure := by
  have hhead : WellFormed true true fun g => (do
      let parameters ← separated (parameter g) (symbol ",") .refused
      symbol "->"
      pure parameters) :=
    .bind (.separated wellFormed_parameter (wellFormed_symbol rfl)) fun _ =>
      .after (wellFormed_symbol rfl) fun _ => .pure _
  refine .after (.spanned ?_) fun ⟨⟨_, _⟩, _⟩ => .pure _
  exact .after (wellFormed_symbol rfl) fun _ => .bind (.optional hhead) fun _ =>
    .bind (.many .statement) fun _ => .bind (wellFormed_symbol rfl) fun _ => .pure _

/-! ### Arguments -/

theorem wellFormed_entryKey : WellFormed behind true entryKey :=
  .orElse
    (wellFormed_constantOf (.choice (.map _ wellFormed_identifier)
      (.cons (.map _ (.token wellFormed_quoted)) (.cons (.token wellFormed_number) .nil))))
    (.between rfl rfl .expression)

theorem wellFormed_mapEntry : WellFormed behind true mapEntry := by
  refine .orElse (.after (.spanned ?_) fun ⟨⟨_, _⟩, _⟩ => .pure _)
    (.after (.spanned ?_) fun ⟨_, _⟩ => .pure _)
  · exact .after wellFormed_entryKey fun _ => .bind (wellFormed_symbol rfl) fun _ =>
      .bind .expression fun _ => .pure _
  · exact .next (wellFormed_symbol rfl) .expression

theorem wellFormed_spread : WellFormed behind true spread :=
  .after (.spanned (.next (wellFormed_symbol rfl) .expression)) fun ⟨_, _⟩ => .pure _

theorem wellFormed_argument : WellFormed true true argument :=
  .orElse (.orElse (.map _ wellFormed_mapEntry) (.map _ wellFormed_spread)) (.map _ .expression)

theorem wellFormed_arguments : WellFormed behind true arguments := by
  have hitems : WellFormed true false fun g => separated (argument g) (symbol ",") .allowed :=
    .separated wellFormed_argument (wellFormed_symbol rfl)
  refine .after (.spanned ?_) fun ⟨⟨_, _⟩, _⟩ => .pure _
  exact .after (.between rfl rfl hitems) fun _ => .bind (.optional wellFormed_closure) fun _ =>
    .pure _

/-! ### Primaries -/

/-- A size of an array, or an index. -/
theorem wellFormed_index : WellFormed behind true fun g => between "[" g.expression "]" :=
  .between rfl rfl .expression

theorem wellFormed_sizedArray : WellFormed behind true sizedArray := by
  refine .after (.spanned ?_) fun ⟨⟨_, _⟩, _⟩ => .pure _
  exact .after (wellFormed_keyword _) fun _ => .bind wellFormed_classType fun _ =>
    .bind (.many1 wellFormed_index) fun _ => .bind (.many wellFormed_emptyBrackets) fun _ => .pure _

theorem wellFormed_initializedArray : WellFormed behind true initializedArray := by
  have helements : WellFormed true false fun g => separated g.expression (symbol ",") .allowed :=
    .separated .expression (wellFormed_symbol rfl)
  refine .after (.spanned ?_) fun ⟨⟨_, _, _⟩, _⟩ => .pure _
  exact .after (wellFormed_keyword _) fun _ => .bind wellFormed_classType fun _ =>
    .bind (.many1 wellFormed_emptyBrackets) fun _ => .bind (.between rfl rfl helements) fun _ =>
      .pure _

theorem wellFormed_newObject : WellFormed behind true newObject := by
  refine .after (.spanned ?_) fun ⟨⟨_, _⟩, _⟩ => .pure _
  exact .after (wellFormed_keyword _) fun _ => .bind wellFormed_classType fun _ =>
    .bind wellFormed_arguments fun _ => .pure _

theorem wellFormed_specialWord : WellFormed behind true fun _ => specialWord :=
  .orElse (wellFormed_wordValue _ _) (wellFormed_wordValue _ _)

theorem wellFormed_specialCall : WellFormed behind true specialCall := by
  refine .after (.spanned ?_) fun ⟨⟨_, _⟩, _⟩ => .pure _
  exact .after wellFormed_specialWord fun _ => .bind wellFormed_arguments fun _ => .pure _

theorem wellFormed_specialVariable : WellFormed behind true fun _ => specialVariable :=
  .after (.spanned wellFormed_specialWord) fun ⟨_, _⟩ => .pure _

theorem wellFormed_emptyMap : WellFormed behind true fun _ => emptyMap := by
  refine .after (.spanned ?_) fun ⟨_, _⟩ => .pure _
  exact .next (wellFormed_symbol rfl) (.next (wellFormed_symbol rfl) (wellFormed_symbol rfl))

theorem wellFormed_map : WellFormed behind true map := by
  have hentries : WellFormed true true fun g =>
      separated1 (mapEntry g) (symbol ",") .allowed :=
    .separated1 wellFormed_mapEntry (wellFormed_symbol rfl)
  exact .after (.spanned (.between rfl rfl hentries)) fun ⟨_, _⟩ => .pure _

theorem wellFormed_listItem : WellFormed true true fun g => orElse (spread g) g.expression :=
  .orElse wellFormed_spread .expression

theorem wellFormed_list : WellFormed behind true list := by
  have hitems : WellFormed true false fun g =>
      separated (orElse (spread g) g.expression) (symbol ",") .allowed :=
    .separated wellFormed_listItem (wellFormed_symbol rfl)
  exact .after (.spanned (.between rfl rfl hitems)) fun ⟨_, _⟩ => .pure _

theorem wellFormed_variableName : WellFormed behind true fun _ => variableName :=
  .after (.spanned wellFormed_identifier) fun ⟨_, _⟩ => .pure _

theorem wellFormed_primary : WellFormed behind true primary :=
  .choice wellFormed_literal (.cons wellFormed_sizedArray (.cons wellFormed_initializedArray
    (.cons wellFormed_newObject (.cons wellFormed_specialCall (.cons wellFormed_specialVariable
      (.cons wellFormed_closure (.cons wellFormed_emptyMap (.cons wellFormed_map
        (.cons wellFormed_list (.cons (.between rfl rfl .expression)
          (.cons wellFormed_variableName .nil)))))))))))

/-! ### Suffixes -/

theorem wellFormed_memberName : WellFormed behind true fun _ => memberName :=
  .after (.spanned wellFormed_identifier) fun ⟨_, _⟩ => .pure _

theorem wellFormed_accessor : WellFormed behind true fun _ => accessor :=
  .choice (wellFormed_signValue rfl _)
    (.cons (wellFormed_signValue rfl _) (.cons (wellFormed_signValue rfl _) .nil))

theorem wellFormed_memberArguments : WellFormed behind true memberArguments :=
  .orElse wellFormed_arguments (.after (.spanned wellFormed_closure) fun ⟨_, _⟩ => .pure _)

theorem wellFormed_memberSuffix : WellFormed behind true memberSuffix :=
  .after wellFormed_accessor fun _ => .bind wellFormed_memberName fun ⟨_, _⟩ =>
    .bind (.optional wellFormed_memberArguments) fun _ => .pure _

/-- A suffix that is a sign and a name. -/
theorem wellFormed_namedSuffix {sign : String} (hsign : sign.isEmpty = false)
    (f : String → Suffix) : WellFormed behind true fun _ =>
      (do symbol sign; let (name, stop) ← memberName; pure (f name, stop)) :=
  .after (wellFormed_symbol hsign) fun _ => .bind wellFormed_memberName fun ⟨_, _⟩ => .pure _

theorem wellFormed_suffix : WellFormed behind true suffix := by
  refine .choice (wellFormed_namedSuffix rfl _) (.cons (wellFormed_namedSuffix rfl _)
    (.cons ?_ (.cons wellFormed_memberSuffix (.cons ?_ (.cons ?_ (.cons ?_ .nil))))))
  · exact .after (.spanned (.next (wellFormed_symbol rfl) (wellFormed_keyword _)))
      fun ⟨_, _⟩ => .pure _
  · exact .after wellFormed_arguments fun _ => .pure _
  · exact .after (.spanned wellFormed_index) fun ⟨_, _⟩ => .pure _
  · exact .after (.spanned (.orElse (wellFormed_signValue rfl _) (wellFormed_signValue rfl _)))
      fun ⟨_, _⟩ => .pure _

theorem wellFormed_suffixed : WellFormed behind true suffixed :=
  .after wellFormed_primary fun _ => .bind (.many wellFormed_suffix) fun _ => .pure _

/-! ### Operators before and after an operand -/

theorem wellFormed_sign {s : String} (hs : s.isEmpty = false) :
    WellFormed behind true fun _ => sign s := wellFormed_signValue hs s

theorem wellFormed_signs (s : String) (others : List String)
    (hs : (s :: others).all (!·.isEmpty) = true) :
    WellFormed behind true fun _ => signs s others := by
  have hnonempty : ∀ sign ∈ s :: others, sign.isEmpty = false := by simpa using hs
  obtain ⟨hs, hothers⟩ := List.forall_mem_cons.mp hnonempty
  refine .choice (wellFormed_sign hs) ⟨others.map fun s _ => sign s, fun _ => ?_, ?_⟩
  · rw [List.map_map]
    rfl
  · exact List.forall_mem_map.mpr fun s hs => wellFormed_sign (hothers s hs)

theorem wellFormed_cast : WellFormed behind true cast := by
  refine .after (.spanned ?_) fun ⟨⟨_, _⟩, _⟩ => .pure _
  exact .after (.accepted _ (.between rfl rfl wellFormed_typeName)) fun _ =>
    .bind .unary fun _ => .pure _

theorem wellFormed_unary : WellFormed behind true unary := by
  refine .orElse (.orElse wellFormed_cast wellFormed_suffixed)
    (.after (.spanned ?_) fun ⟨⟨_, _⟩, _⟩ => .pure _)
  exact .after (wellFormed_signs _ _ rfl) fun _ => .bind .unary fun _ => .pure _

/-- A type after `as`, with its end. -/
theorem wellFormed_coercion : WellFormed behind true fun g => (do
    let (target, span) ← spanned do
      keyword "as"
      typeName g
    pure (target, span.stop)) :=
  .after (.spanned (.next (wellFormed_keyword _) wellFormed_typeName)) fun ⟨_, _⟩ => .pure _

theorem wellFormed_coerced : WellFormed behind true coerced :=
  .after wellFormed_unary fun _ => .bind (.many wellFormed_coercion) fun _ => .pure _

/-! ### Binary operators -/

section Chains

variable {operand : Inner → Parser Expression} {others : Inner → Parser (String × Expression)}
  {operator : Parser String}

/-- An operator and its right operand. -/
def operation (operand : Parser Expression) (operator : Parser String) :
    Parser (String × Expression) := do
  let operation ← operator
  let right ← operand
  pure (operation, right)

theorem wellFormed_operation (hoperand : WellFormed true true operand)
    (hoperator : WellFormed behind true fun _ => operator) :
    WellFormed behind true fun g => operation (operand g) operator :=
  .after hoperator fun _ => .bind hoperand fun _ => .pure _

theorem wellFormed_chain (hoperand : WellFormed behind true operand)
    (hothers : WellFormed true true others) :
    WellFormed behind true fun g => chain (operand g) (others g) :=
  .after hoperand fun _ => .bind (.many hothers) fun _ => .pure _

theorem wellFormed_tier (hoperand : WellFormed behind true operand)
    (hoperator : WellFormed true true fun _ => operator) :
    WellFormed behind true fun g => tier (operand g) operator :=
  wellFormed_chain hoperand (wellFormed_operation hoperand.later hoperator)

end Chains

theorem wellFormed_power : WellFormed behind true power :=
  wellFormed_tier wellFormed_coerced (wellFormed_sign rfl)

theorem wellFormed_multiplicative : WellFormed behind true multiplicative :=
  wellFormed_tier wellFormed_power (wellFormed_signs _ _ rfl)

theorem wellFormed_additive : WellFormed behind true additive :=
  wellFormed_tier wellFormed_multiplicative (.orElse (wellFormed_sign rfl) (wellFormed_sign rfl))

theorem wellFormed_shift : WellFormed behind true shift :=
  wellFormed_tier wellFormed_additive (.orElse (wellFormed_sign rfl) (wellFormed_sign rfl))

theorem wellFormed_range : WellFormed behind true range := by
  have hlast : WellFormed true true fun g => (do
      let inclusive ← orElse (do symbol "..<"; pure false) (do symbol ".."; pure true)
      let last ← shift g
      pure (inclusive, last)) :=
    .after (.orElse (wellFormed_signValue rfl _) (wellFormed_signValue rfl _)) fun _ =>
      .bind wellFormed_shift fun _ => .pure _
  refine .after wellFormed_shift fun _ => .bind (.optional hlast) fun last => ?_
  cases last <;> exact .pure _

theorem wellFormed_wordSign (w : String) : WellFormed behind true fun _ => wordSign w :=
  wellFormed_wordValue w w

theorem wellFormed_instanceTest : WellFormed behind true instanceTest :=
  .after (wellFormed_wordSign _) fun _ => .bind (.spanned wellFormed_typeName) fun ⟨_, _⟩ =>
    .pure _

/-- A sign or word that compares, and its right operand. -/
theorem wellFormed_comparison : WellFormed behind true fun g =>
    orElse
      (do
        let operation ← firstOf (sign "<=") [sign ">=", sign "<", sign ">", wordSign "in"]
        let right ← range g
        pure (operation, right))
      (instanceTest g) := by
  refine .orElse (.after (.choice (wellFormed_sign rfl) ?_) fun _ => .bind wellFormed_range
    fun _ => .pure _) wellFormed_instanceTest
  exact .cons (wellFormed_sign rfl) (.cons (wellFormed_sign rfl) (.cons (wellFormed_sign rfl)
    (.cons (wellFormed_wordSign _) .nil)))

theorem wellFormed_relational : WellFormed behind true relational :=
  wellFormed_chain wellFormed_range wellFormed_comparison

theorem wellFormed_equality : WellFormed behind true equality :=
  wellFormed_tier wellFormed_relational (wellFormed_signs _ _ rfl)

theorem wellFormed_bitwiseAnd : WellFormed behind true bitwiseAnd :=
  wellFormed_tier wellFormed_equality (wellFormed_sign rfl)

theorem wellFormed_bitwiseXor : WellFormed behind true bitwiseXor :=
  wellFormed_tier wellFormed_bitwiseAnd (wellFormed_sign rfl)

theorem wellFormed_bitwiseOr : WellFormed behind true bitwiseOr :=
  wellFormed_tier wellFormed_bitwiseXor (wellFormed_sign rfl)

theorem wellFormed_logicalAnd : WellFormed behind true logicalAnd :=
  wellFormed_tier wellFormed_bitwiseOr (wellFormed_sign rfl)

theorem wellFormed_logicalOr : WellFormed behind true logicalOr :=
  wellFormed_tier wellFormed_logicalAnd (wellFormed_sign rfl)

/-! ### Conditionals and assignments -/

theorem wellFormed_conditionalBranches : WellFormed behind true conditionalBranches :=
  .orElse
    (.after (wellFormed_symbol rfl) fun _ => .bind .expression fun _ => .pure _)
    (.after (wellFormed_symbol rfl) fun _ => .bind .expression fun _ =>
      .bind (wellFormed_symbol rfl) fun _ => .bind .expression fun _ => .pure _)

theorem wellFormed_conditional : WellFormed behind true conditional := by
  refine .after wellFormed_logicalOr fun _ =>
    .bind (.optional wellFormed_conditionalBranches) fun branches => ?_
  match branches with
  | none => exact .pure _
  | some (some _, _) => exact .pure _
  | some (none, _) => exact .pure _

theorem wellFormed_expression : WellFormed behind true expression := by
  have hassigned : WellFormed true true fun g => (do
      let operation ← signs "**=" ["+=", "-=", "*=", "/=", "%=", "="]
      let value ← g.expression
      pure (operation, value)) :=
    .after (wellFormed_signs _ _ rfl) fun _ => .bind .expression fun _ => .pure _
  refine .after wellFormed_conditional fun _ => .bind (.optional hassigned) fun assigned => ?_
  cases assigned <;> exact .pure _

/-! ### Blocks and declarations of variables -/

theorem wellFormed_optionalSymbol {s : String} (hs : s.isEmpty = false) :
    WellFormed behind false fun _ => optionalSymbol s :=
  .bind (.optional (wellFormed_symbol hs)) fun _ => .pure _

theorem wellFormed_block {rule : Inner → Parser Statement} (h : WellFormed true true rule) :
    WellFormed behind true fun g => block (rule g) :=
  .after (.spanned (.between rfl rfl (.many h))) fun ⟨_, _⟩ => .pure _

theorem wellFormed_inBrackets : WellFormed behind true inBrackets := .between rfl rfl .expression

theorem wellFormed_declaration : WellFormed behind true declaration := by
  have htype : WellFormed behind true fun g =>
      orElse (do keyword "def"; pure none) (some <$> typeName g) :=
    .orElse (wellFormed_wordValue _ _) (.map _ wellFormed_typeName)
  have hvalue : WellFormed true true fun g => (do symbol "="; expression g) :=
    .next (wellFormed_symbol rfl) wellFormed_expression
  refine .after (.spanned ?_) fun ⟨⟨_, ⟨_, _⟩, _⟩, _⟩ => .pure _
  exact .bind (.optional (wellFormed_keyword _)) fun _ => .after htype fun _ =>
    .bind (.spanned wellFormed_identifier) fun _ => .bind (.optional hvalue) fun _ => .pure _

/-! ### Branches and loops -/

theorem wellFormed_branch : WellFormed behind true branch := by
  have helse : WellFormed true true fun g => (do keyword "else"; g.statement) :=
    .next (wellFormed_keyword _) .statement
  exact .after (wellFormed_keyword _) fun _ => .bind wellFormed_inBrackets fun _ =>
    .bind .statement fun _ => .bind (.optional helse) fun _ => .pure _

theorem wellFormed_whileLoop : WellFormed behind true whileLoop :=
  .after (wellFormed_keyword _) fun _ => .bind wellFormed_inBrackets fun _ =>
    .bind .statement fun _ => .pure _

theorem wellFormed_doWhile : WellFormed behind true doWhile :=
  .after (wellFormed_keyword _) fun _ => .bind .statement fun _ =>
    .bind (wellFormed_keyword _) fun _ => .bind wellFormed_inBrackets fun _ => .pure _

theorem wellFormed_forEach : WellFormed behind true forEach := by
  have hhead : WellFormed true true fun g => (do
      let binding ← typedName g
      orElse (keyword "in") (symbol ":")
      let collection ← expression g
      pure (binding, collection)) :=
    .after wellFormed_typedName fun _ =>
      .bind (.orElse (wellFormed_keyword _) (wellFormed_symbol rfl)) fun _ =>
        .bind wellFormed_expression fun _ => .pure _
  exact .after (wellFormed_keyword _) fun _ => .bind (.between rfl rfl hhead) fun ⟨_, _⟩ =>
    .bind .statement fun _ => .pure _

theorem wellFormed_clauses : WellFormed behind true clauses := by
  have hfirst : WellFormed behind true fun g => orElse (declaration g) (expression g) :=
    .orElse wellFormed_declaration wellFormed_expression
  refine .after (.spanned ?_) fun ⟨_, _⟩ => .pure _
  exact .bind (.optional hfirst) fun _ => .after (wellFormed_symbol rfl) fun _ =>
    .bind (.optional wellFormed_expression) fun _ => .bind (wellFormed_symbol rfl) fun _ =>
      .bind (.optional wellFormed_expression) fun _ => .pure _

theorem wellFormed_countingLoop : WellFormed behind true countingLoop :=
  .after (wellFormed_keyword _) fun _ => .bind (.between rfl rfl wellFormed_clauses) fun _ =>
    .bind .statement fun _ => .pure _

/-! ### Clauses -/

theorem wellFormed_catchBinding : WellFormed behind true catchBinding :=
  .orElse (.after wellFormed_classType fun _ => .bind wellFormed_identifier fun _ => .pure _)
    (.after wellFormed_identifier fun _ => .pure _)

theorem wellFormed_catchClause : WellFormed behind true catchClause := by
  refine .after (.spanned ?_) fun ⟨⟨_, _⟩, _⟩ => .pure _
  exact .after (wellFormed_keyword _) fun _ =>
    .bind (.between rfl rfl wellFormed_catchBinding) fun _ =>
      .bind (wellFormed_block .statement) fun _ => .pure _

theorem wellFormed_tryCatch : WellFormed behind true tryCatch := by
  have hfinally : WellFormed true true fun g => (do keyword "finally"; block g.statement) :=
    .next (wellFormed_keyword _) (wellFormed_block .statement)
  exact .after (wellFormed_keyword _) fun _ => .bind (wellFormed_block .statement) fun _ =>
    .bind (.many wellFormed_catchClause) fun _ => .bind (.optional hfinally) fun _ => .pure _

theorem wellFormed_caseBody : WellFormed true false caseBody :=
  .bind (.spanned (.many .statement)) fun ⟨_, _⟩ => .pure _

theorem wellFormed_caseClause : WellFormed behind true caseClause := by
  refine .after (.spanned ?_) fun ⟨⟨_, _⟩, _⟩ => .pure _
  exact .after (wellFormed_keyword _) fun _ => .bind wellFormed_expression fun _ =>
    .bind (wellFormed_symbol rfl) fun _ => .bind wellFormed_caseBody fun _ => .pure _

theorem wellFormed_defaultClause : WellFormed behind true defaultClause :=
  .next (wellFormed_keyword _) (.next (wellFormed_symbol rfl) wellFormed_caseBody)

theorem wellFormed_switch : WellFormed behind true switch := by
  have hclauses : WellFormed true false fun g => (do
      let cases ← many (caseClause g)
      let defaultBlock ← optional (defaultClause g)
      pure (cases, defaultBlock)) :=
    .bind (.many wellFormed_caseClause) fun _ =>
      .bind (.optional wellFormed_defaultClause) fun _ => .pure _
  exact .after (wellFormed_keyword _) fun _ => .bind wellFormed_inBrackets fun _ =>
    .bind (.between rfl rfl hclauses) fun ⟨_, _⟩ => .pure _

theorem wellFormed_synchronized : WellFormed behind true synchronized :=
  .after (wellFormed_keyword _) fun _ => .bind wellFormed_inBrackets fun _ =>
    .bind (wellFormed_block .statement) fun _ => .pure _

/-! ### Simple statements -/

theorem wellFormed_throwing : WellFormed behind true throwing :=
  .after (wellFormed_keyword _) fun _ => .bind wellFormed_expression fun _ => .pure _

theorem wellFormed_returning : WellFormed behind true returning :=
  .after (wellFormed_keyword _) fun _ => .bind (.optional wellFormed_expression) fun _ => .pure _

theorem wellFormed_assertion : WellFormed behind true assertion := by
  have hmessage : WellFormed true true fun g =>
      (do orElse (symbol ":") (symbol ","); expression g) :=
    .next (.orElse (wellFormed_symbol rfl) (wellFormed_symbol rfl)) wellFormed_expression
  exact .after (wellFormed_keyword _) fun _ => .bind wellFormed_expression fun _ =>
    .bind (.optional hmessage) fun _ => .pure _

theorem wellFormed_statementNode : WellFormed behind true statementNode :=
  .choice wellFormed_branch (.cons wellFormed_whileLoop (.cons wellFormed_doWhile
    (.cons wellFormed_forEach (.cons wellFormed_countingLoop (.cons wellFormed_tryCatch
      (.cons wellFormed_switch (.cons (wellFormed_wordValue _ _) (.cons (wellFormed_wordValue _ _)
        (.cons wellFormed_synchronized (.cons wellFormed_throwing (.cons wellFormed_returning
          (.cons wellFormed_assertion (.cons (.map _ wellFormed_declaration)
            (.cons (.map _ wellFormed_expression) .nil))))))))))))))

theorem wellFormed_simpleStatement : WellFormed behind true simpleStatement :=
  .after (.spanned wellFormed_statementNode) fun ⟨_, _⟩ =>
    .bind (wellFormed_optionalSymbol rfl) fun _ => .pure _

theorem wellFormed_emptyStatement : WellFormed behind true fun _ => emptyStatement :=
  .after (.spanned (wellFormed_symbol rfl)) fun ⟨_, _⟩ => .pure _

theorem wellFormed_statement : WellFormed behind true statement :=
  .orElse (.orElse (wellFormed_block .statement) wellFormed_simpleStatement)
    wellFormed_emptyStatement

/-! ### Modifiers and annotations -/

theorem wellFormed_modifier : WellFormed behind true fun _ => modifier :=
  .choice (wellFormed_wordValue _ _) (.cons (wellFormed_wordValue _ _)
    (.cons (wellFormed_wordValue _ _) (.cons (wellFormed_wordValue _ _)
      (.cons (wellFormed_wordValue _ _) (.cons (wellFormed_wordValue _ _)
        (.cons (wellFormed_wordValue _ _) .nil))))))

theorem wellFormed_modifiers : WellFormed behind false fun _ => modifiers :=
  .bind (.many wellFormed_modifier) fun _ => .pure _

theorem wellFormed_annotationMember : WellFormed behind true annotationMember :=
  .orElse
    (.after wellFormed_identifier fun _ => .bind (wellFormed_symbol rfl) fun _ =>
      .bind wellFormed_expression fun _ => .pure _)
    (.after wellFormed_expression fun _ => .pure _)

theorem wellFormed_annotationUse : WellFormed behind true annotationUse := by
  have hmembers : WellFormed true true fun g =>
      between "(" (separated (annotationMember g) (symbol ",") .refused) ")" :=
    .between rfl rfl (.separated wellFormed_annotationMember (wellFormed_symbol rfl))
  refine .after (.spanned ?_) fun ⟨⟨_, _⟩, _⟩ => .pure _
  exact .after (wellFormed_symbol rfl) fun _ => .bind wellFormed_classType fun _ =>
    .bind (.optional hmembers) fun _ => .pure _

/-! ### Members -/

theorem wellFormed_parameters : WellFormed behind true parameters :=
  .between rfl rfl (.separated wellFormed_parameter (wellFormed_symbol rfl))

theorem wellFormed_method : WellFormed behind true method := by
  have hcode : WellFormed true false fun g =>
      orElse (some <$> block (statement g)) (do optionalSymbol ";"; pure none) :=
    .orElse (.map _ (wellFormed_block wellFormed_statement).weaken)
      (.bind (wellFormed_optionalSymbol rfl) fun _ => .pure _)
  refine .after (.spanned ?_) fun ⟨_, _⟩ => .pure _
  exact .bind (.many wellFormed_annotationUse) fun _ => .bind wellFormed_modifiers fun _ =>
    .after wellFormed_declaredType fun _ => .bind wellFormed_identifier fun _ =>
      .bind wellFormed_parameters fun _ => .bind hcode fun _ => .pure _

theorem wellFormed_constructor : WellFormed behind true constructor := by
  refine .after (.spanned ?_) fun ⟨⟨_, _⟩, _⟩ => .pure _
  exact .bind (.many wellFormed_annotationUse) fun _ => .bind wellFormed_modifiers fun _ =>
    .after wellFormed_identifier fun _ => .bind wellFormed_parameters fun _ =>
      .bind (wellFormed_block wellFormed_statement) fun _ => .pure _

theorem wellFormed_field : WellFormed behind true field := by
  have hinitial : WellFormed true true fun g => (do symbol "="; expression g) :=
    .next (wellFormed_symbol rfl) wellFormed_expression
  refine .after (.spanned ?_) fun ⟨_, _⟩ => ?_
  · exact .bind (.many wellFormed_annotationUse) fun _ => .bind wellFormed_modifiers fun _ =>
      .after wellFormed_declaredType fun _ => .bind wellFormed_identifier fun _ =>
        .bind (.optional hinitial) fun _ => .pure _
  · dsimp only
    split <;> exact .pure _

theorem wellFormed_member : WellFormed behind true member :=
  .after (.orElse (.orElse (.map _ wellFormed_method) wellFormed_constructor) wellFormed_field)
    fun _ => .bind (wellFormed_optionalSymbol rfl) fun _ => .pure _

/-! ### Classes and scripts -/

theorem wellFormed_classDeclaration : WellFormed behind true classDeclaration := by
  have hextends : WellFormed true true fun g => (do keyword "extends"; classType g) :=
    .next (wellFormed_keyword _) wellFormed_classType
  have hinterfaces : WellFormed true true fun g =>
      (do keyword "implements"; separated1 (classType g) (symbol ",") .refused) :=
    .next (wellFormed_keyword _) (.separated1 wellFormed_classType (wellFormed_symbol rfl))
  refine .after (.spanned ?_) fun ⟨_, _⟩ => .pure _
  exact .bind (.many wellFormed_annotationUse) fun _ => .bind wellFormed_modifiers fun _ =>
    .after (wellFormed_keyword _) fun _ => .bind wellFormed_identifier fun _ =>
      .bind (.optional hextends) fun _ => .bind (.optional hinterfaces) fun _ =>
        .bind (.between rfl rfl (.many wellFormed_member)) fun _ => .pure _

theorem wellFormed_item : WellFormed behind true item :=
  .orElse (.orElse (.map _ wellFormed_classDeclaration) (.map _ wellFormed_method))
    (.map _ wellFormed_statement)

theorem wellFormed_script : WellFormed behind false script :=
  .bind wellFormed_blanks fun _ => .bind (.many wellFormed_item) fun _ =>
    .bind .endOfInput fun _ => .pure _

end Rules

end ScriptOutline.Grammar
