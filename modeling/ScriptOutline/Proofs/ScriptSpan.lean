/-
ScriptOutline/Proofs/ScriptSpan.lean

The spans of declarations and whole scripts.  Annotations, members and classes are pieces that
span all that was read for them (`Piece.Stands.whole`), so the rules say of what is read that
the piece it is stands where it was read (`PieceStands`).

`Script.parse_spans` is the theorem about a source: whatever is in the script that was read is
missing, or has a span that is not empty, lies in the source and inside the piece around it,
with one exception, the body of a case without statements.
-/
import ScriptOutline.Grammar.Declaration
import ScriptOutline.Proofs.StatementSpan

namespace ScriptOutline.Grammar

open ScriptOutline.Grammar.Parser

variable {size : Nat} {g : Inner}

/-! ### Annotations and modifiers -/

/-- The piece that a value is stands between two positions. -/
def PieceStands {α : Type} (piece : α → Piece) (start : Nat) (x : α) (stop : Nat) : Prop :=
  (piece x).Stands start stop

theorem widens_piece {α : Type} (piece : α → Piece) : Widens (PieceStands piece) :=
  fun _ _ _ _ _ hstart hstop h => Piece.Stands.widen h hstart hstop

theorem places_modifiers : Places size modifiers fun _ _ _ => True := by
  have hword (word : String) (change : Modifiers → Modifiers) :
      Places size (do keyword word; pure change) fun _ _ _ => True :=
    (advances_keyword word).forward.bind_forward fun _ => Places.pure_forward _
  have hmodifier : Places size modifier fun _ _ _ => True :=
    Places.firstOf (hword _ _) ⟨hword _ _, hword _ _, hword _ _, hword _ _, hword _ _, hword _ _⟩
  exact (Places.many widens_true hmodifier).forward.bind_forward fun _ => Places.pure_forward _

theorem places_annotationMember (h : g.Sound size) : Places size (annotationMember g)
    fun start member stop => member.2.Stands start stop := by
  intro start
  refine Leads.orElse ?_ ?_
  · refine (advances_identifier start).bind fun name p₁ hle₁ _ => ?_
    refine ((advances_symbol "=" rfl) p₁).bind fun _ p₂ hle₂ _ => ?_
    refine (places_expression h p₂).bind fun value _ _ hvalue => Leads.pure ?_
    exact hvalue.widen (hle₁.trans hle₂) (Nat.le_refl _)
  · exact (places_expression h start).bind fun value _ _ hvalue => Leads.pure hvalue

theorem places_annotationUse (h : g.Sound size) :
    Places size (annotationUse g) (PieceStands .annotated) := by
  intro start
  have hwide : Widens fun start (member : String × Expression) stop =>
      member.2.Stands start stop := fun _ _ _ _ _ hstart hstop h => h.widen hstart hstop
  have hlist : Places size (separated (annotationMember g) (symbol ",") .refused)
      fun start members stop => ∀ member ∈ members, member.2.Stands start stop :=
    Places.separated hwide (advances_symbol "," rfl).forward (places_annotationMember h)
  have hmembers := Places.between (widens_all hwide) (advances_symbol "(" rfl)
    (advances_symbol ")" rfl) hlist
  refine Leads.spanned_bind (((advances_symbol "@" rfl) start).bind fun _ p₁ hle₁ hlt => ?_)
  refine (advances_classType h p₁).bind fun type p₂ hle₂ _ => ?_
  refine (Places.optional hmembers p₂).bind fun members stop hle₃ hm => ?_
  have hlt : start < stop := by omega
  refine Leads.pure ⟨hlt, Leads.pure (.whole rfl (fun _ => rfl) hlt ?_)⟩
  refine List.forall_mem_map.mpr fun member hmember => ?_
  cases members with
  | none => exact absurd hmember List.not_mem_nil
  | some members =>
    exact ((hm members rfl).2 member hmember).widen (hle₁.trans hle₂) (Nat.le_refl _)

theorem places_annotations (h : g.Sound size) : Places size (many (annotationUse g))
    fun start annotations stop => ∀ q ∈ annotations.map Piece.annotated, q.Stands start stop :=
  (Places.many (widens_piece .annotated) (places_annotationUse h)).mono
    fun _ _ _ _ _ ha => List.forall_mem_map.mpr ha

/-! ### Members -/

theorem places_parameters (h : g.Sound size) : Places size (parameters g)
    fun start ps stop => start < stop ∧
      ∀ q ∈ (defaultValues ps).map Piece.ofExpression, q.Stands start stop :=
  (Places.between (widens_all widens_parameter) (advances_symbol "(" rfl) (advances_symbol ")" rfl)
    (Places.separated widens_parameter (advances_symbol "," rfl).forward (places_parameter h))).mono
    fun _ _ _ _ _ ⟨hlt, hps⟩ =>
      ⟨hlt, List.forall_mem_map.mpr (stands_of_mem_defaultValues hps)⟩

theorem places_method (h : g.Sound size) : Places size (method g) (PieceStands .method) := by
  intro start
  have hcode : Places size
      (orElse (some <$> block (statement g)) (do optionalSymbol ";"; pure none))
      fun start code stop => ∀ q ∈ code.toList.map Piece.ofStatement, q.Stands start stop := by
    refine Places.orElse (Places.map ?_) fun start => ?_
    · exact (places_block (places_statement h)).mono fun _ _ _ _ _ hs =>
        List.forall_mem_singleton.mpr hs
    · exact ((places_optionalSymbol ";" rfl) start).bind fun _ _ _ _ => Leads.pure (by simp)
  refine Leads.spanned_bind ((places_annotations h start).bind fun annotations p₁ hle₁ ha => ?_)
  refine (places_modifiers p₁).bind fun modifiers p₂ hle₂ _ => ?_
  refine (advances_declaredType h p₂).bind fun type p₃ hle₃ hlt => ?_
  refine (advances_identifier p₃).bind fun name p₄ hle₄ _ => ?_
  refine (places_parameters h p₄).bind fun parameters p₅ hle₅ ⟨_, hp⟩ => ?_
  refine (hcode p₅).bind fun code stop hle₆ hc => ?_
  have hlt : start < stop := by omega
  refine Leads.pure ⟨hlt, Leads.pure (Piece.Stands.whole rfl (fun _ => rfl) hlt ?_)⟩
  refine List.forall_mem_append.mpr ⟨List.forall_mem_append.mpr ⟨?_, ?_⟩, ?_⟩
  · exact fun q hq => (ha q hq).widen (Nat.le_refl _) (by omega)
  · exact fun q hq => (hp q hq).widen (by omega) (by omega)
  · exact fun q hq => (hc q hq).widen (by omega) (Nat.le_refl _)

theorem places_constructor (h : g.Sound size) :
    Places size (constructor g) (PieceStands Member.piece) := by
  intro start
  refine Leads.spanned_bind ((places_annotations h start).bind fun annotations p₁ hle₁ ha => ?_)
  refine (places_modifiers p₁).bind fun modifiers p₂ hle₂ _ => ?_
  refine (advances_identifier p₂).bind fun name p₃ hle₃ hlt => ?_
  refine (places_parameters h p₃).bind fun parameters p₄ hle₄ ⟨_, hp⟩ => ?_
  refine (places_block (places_statement h) p₄).bind fun code stop hle₅ hc => ?_
  have hlt : start < stop := by omega
  refine Leads.pure ⟨hlt, Leads.pure (Piece.Stands.whole rfl (fun _ => rfl) hlt ?_)⟩
  refine List.forall_mem_append.mpr ⟨List.forall_mem_append.mpr ⟨?_, ?_⟩, ?_⟩
  · exact fun q hq => (ha q hq).widen (Nat.le_refl _) (by omega)
  · exact fun q hq => (hp q hq).widen (by omega) hle₅
  · exact List.forall_mem_singleton.mpr (hc.widen (by omega) (Nat.le_refl _))

theorem places_field (h : g.Sound size) : Places size (field g) (PieceStands Member.piece) := by
  intro start
  refine Leads.spanned_bind ((places_annotations h start).bind fun annotations p₁ hle₁ ha => ?_)
  refine (places_modifiers p₁).bind fun modifiers p₂ hle₂ _ => ?_
  refine (advances_declaredType h p₂).bind fun type p₃ hle₃ hlt => ?_
  refine (advances_identifier p₃).bind fun name p₄ hle₄ _ => ?_
  refine (Places.optional (places_assigned h) p₄).bind fun initial stop hle₅ hi => ?_
  have hlt : start < stop := by omega
  refine Leads.pure ⟨hlt, ?_⟩
  have hfield : (Piece.field
      ⟨name, modifiers, type, annotations, initial, "", ⟨start, stop⟩⟩).Stands start stop := by
    refine Piece.Stands.whole rfl (fun _ => rfl) hlt (List.forall_mem_append.mpr ⟨?_, ?_⟩)
    · exact fun q hq => (ha q hq).widen (Nat.le_refl _) (by omega)
    · refine List.forall_mem_map.mpr fun e he => ?_
      exact (hi e (Option.mem_toList.mp he)).widen (by omega) (Nat.le_refl _)
  dsimp only
  split
  · exact Leads.pure hfield
  · exact Leads.pure hfield

theorem places_member (h : g.Sound size) : Places size (member g) (PieceStands Member.piece) := by
  intro start
  have hmember : Places size (orElse (orElse (Member.method <$> method g) (constructor g))
      (field g)) (PieceStands Member.piece) := by
    refine Places.orElse (Places.orElse (Places.map ?_) (places_constructor h)) (places_field h)
    exact places_method h
  exact (hmember start).bind fun _ pos _ hm => ((places_optionalSymbol ";" rfl) pos).bind
    fun _ _ hle _ => Leads.pure (hm.widen (Nat.le_refl _) hle)

/-! ### Classes and scripts -/

theorem places_classDeclaration (h : g.Sound size) :
    Places size (classDeclaration g) (PieceStands .declaration) := by
  intro start
  have hsuper : Advances size (do keyword "extends"; classType g) :=
    (advances_keyword "extends").then fun _ => (advances_classType h).forward
  have htypes : Places size (separated1 (classType g) (symbol ",") .refused) fun _ _ _ => True :=
    (Places.separated1 widens_lt (advances_symbol "," rfl).forward (advances_classType h)).forward
  have hinterfaces : Advances size
      (do keyword "implements"; separated1 (classType g) (symbol ",") .refused) :=
    (advances_keyword "implements").then fun _ => htypes
  have hmembers := Places.between (widens_all (widens_piece Member.piece))
    (advances_symbol "\x7b" rfl) (advances_symbol "\x7d" rfl)
    (Places.many (widens_piece Member.piece) (places_member h))
  refine Leads.spanned_bind ((places_annotations h start).bind fun annotations p₁ hle₁ ha => ?_)
  refine (places_modifiers p₁).bind fun modifiers p₂ hle₂ _ => ?_
  refine (advances_keyword "class" p₂).bind fun _ p₃ hle₃ hlt => ?_
  refine (advances_identifier p₃).bind fun name p₄ hle₄ _ => ?_
  refine (Places.optional hsuper p₄).bind fun superClass p₅ hle₅ _ => ?_
  refine (Places.optional hinterfaces p₅).bind fun interfaces p₆ hle₆ _ => ?_
  refine (hmembers p₆).bind fun members stop hle₇ ⟨_, hm⟩ => ?_
  have hlt : start < stop := by omega
  refine Leads.pure ⟨hlt, Leads.pure (Piece.Stands.whole rfl (fun _ => rfl) hlt ?_)⟩
  refine List.forall_mem_append.mpr ⟨fun q hq => ?_, List.forall_mem_map.mpr fun m hmem => ?_⟩
  · exact (ha q hq).widen (Nat.le_refl _) (by omega)
  · exact (hm m hmem).widen (by omega) (Nat.le_refl _)

/-- A piece of a script as a piece. -/
def Item.piece : Item → Piece
  | .classDeclaration c => .declaration c
  | .method m => .method m
  | .statement s => Piece.ofStatement s

theorem places_item (h : g.Sound size) : Places size (item g) (PieceStands Item.piece) := by
  refine Places.orElse (Places.orElse (Places.map ?_) (Places.map ?_)) (Places.map ?_)
  · exact places_classDeclaration h
  · exact places_method h
  · exact places_statement h

theorem Item.mem_roots_addTo {root : Piece} (i : Item) (s : Script) :
    root ∈ (i.addTo s).roots ↔ root = i.piece ∨ root ∈ s.roots := by
  cases i <;> simp only [Item.addTo, Item.piece, Script.roots, List.mem_append, List.map_cons,
    List.mem_cons] <;> tauto

/-- The pieces of a script that are in no other one are the items that it was made of. -/
theorem mem_roots_scriptOf {items : List Item} {root : Piece} :
    root ∈ (scriptOf items).roots ↔ ∃ i ∈ items, root = i.piece := by
  induction items with
  | nil => simp [scriptOf, Script.roots]
  | cons i items ih =>
    change root ∈ (i.addTo (scriptOf items)).roots ↔ _
    rw [i.mem_roots_addTo, ih]
    simp

theorem places_script (h : g.Sound size) : Places size (script g)
    fun start s stop => ∀ root ∈ s.roots, root.Stands start stop := fun start => by
  refine (places_blanks start).bind fun _ p₁ hle₁ _ => ?_
  refine (Places.many (widens_piece Item.piece) (places_item h) p₁).bind fun items p₂ hle₂ hi => ?_
  refine (places_endOfInput p₂).bind fun _ stop hle₃ _ => Leads.pure fun root hroot => ?_
  obtain ⟨i, hmem, rfl⟩ := mem_roots_scriptOf.mp hroot
  exact (hi i hmem).widen hle₁ hle₃

end ScriptOutline.Grammar

namespace ScriptOutline

open ScriptOutline.Grammar

/-- What is read from a source stands in the source. -/
theorem Script.parse_stands {source : String} {s : Script} (h : Script.parse source = .ok s) :
    ∀ root ∈ s.roots, root.Stands 0 source.length := by
  simp only [Script.parse, Cursor.start] at h
  split at h
  · next script c alt heq =>
    obtain rfl : script = s := by simpa using h
    have hscript : Places source.length (Grammar.script (level (source.toList.length + 1)))
        fun start s stop => ∀ root ∈ s.roots, root.Stands start stop :=
      places_script (level_sound _)
    obtain ⟨-, hsize, hstands⟩ := hscript 0 source.toList
      (by rw [Nat.zero_add, String.length_toList]) script c alt heq
    exact fun root hroot => (hstands root hroot).widen (Nat.le_refl _) (by omega)
  · simp at h

/-- Every piece of a script that was read from a source was not written, and stands for what is
missing in the piece around it, or has a span that is not empty, ends within the source and
lies inside the span of the piece around it.  The body of a case without statements alone
spans the one character after its clause. -/
theorem Script.parse_spans {source : String} {s : Script} (h : Script.parse source = .ok s) :
    (∀ root ∈ s.roots, root.span.start < root.span.stop ∧ root.span.stop ≤ source.length) ∧
    ∀ p q, s.Contains p → q ∈ p.inner →
      p.Lacks q ∧ q.span = ⟨0, 0⟩ ∨
      q.span.start < q.span.stop ∧ q.span.stop ≤ source.length ∧
        (p.IsEmptyCase q → q.span = ⟨p.span.stop, p.span.stop + 1⟩) ∧
        (¬ p.IsEmptyCase q → p.span.start ≤ q.span.start ∧ q.span.stop ≤ p.span.stop) := by
  have hroots : ∀ root ∈ s.roots, root.Stands 0 source.length := Script.parse_stands h
  refine ⟨fun root hroot => ⟨(hroots root hroot).nonempty, (hroots root hroot).le_stop⟩, ?_⟩
  rintro p q ⟨root, hroot, hreach⟩ hq
  have hstands : root.Stands 0 source.length := hroots root hroot
  have hp : p.Fits source.length :=
    hreach.fits hstands.settled (Piece.fits_of_mem_roots hroot hstands.le_stop)
  have hseats : p.Seats q := hstands.settled p hreach q hq
  have hfits : q.Fits source.length := hseats.fits hq hp
  rcases hseats with hlacks | ⟨hstart, hlt, hstop⟩
  · exact .inl ⟨hlacks, hlacks.span_eq⟩
  · refine .inr ⟨hlt, hfits.1, fun hempty => ?_, fun hempty => ?_⟩
    · rw [Piece.room_of_isEmptyCase hempty] at hstart hstop
      generalize q.span = span at hstart hlt hstop ⊢
      obtain ⟨start, stop⟩ := span
      dsimp only at hstart hlt hstop
      simp only [Span.mk.injEq]
      omega
    · obtain ⟨hle, hle'⟩ := Piece.room_le hq hempty
      exact ⟨hle.trans hstart, hstop.trans hle'⟩

/-- A clause without statements, as it is read from `switch (x) \x7b case 1: \x7d`. -/
def emptyClause : CaseClause :=
  ⟨.written (.constant (.integer 1)) ⟨18, 19⟩, ⟨.block [] none, ⟨21, 22⟩⟩, ⟨13, 21⟩⟩

def emptyClauseScript : Script :=
  ⟨[⟨.switch (.written (.variableRef "x" none none) ⟨8, 9⟩) [emptyClause] .missing, ⟨0, 22⟩⟩],
    [], []⟩

theorem Script.parse_emptyClause :
    Script.parse "switch (x) \x7b case 1: \x7d" = .ok emptyClauseScript := by rfl

theorem Script.parse_spans_emptyClause :
    Script.parse "switch (x) \x7b case 1: \x7d" = .ok emptyClauseScript ∧
    emptyClauseScript.Contains (.code (.caseClause emptyClause)) ∧
    emptyClause.code.span.start < emptyClause.code.span.stop ∧
    emptyClause.code.span.stop ≤ 22 ∧
    emptyClause.code.span = ⟨emptyClause.span.stop, emptyClause.span.stop + 1⟩ := by
  have hcontains : emptyClauseScript.Contains (.code (.caseClause emptyClause)) :=
    ⟨Piece.ofStatement _, List.mem_cons_self, .single (.tail _ (.head _))⟩
  have hempty : (Piece.code (.caseClause emptyClause)).IsEmptyCase
      (.code (.statement emptyClause.code)) := ⟨_, _, _, _, rfl, rfl⟩
  obtain ⟨-, hspans⟩ := Script.parse_spans Script.parse_emptyClause
  rcases hspans _ _ hcontains (.tail _ (.head _)) with ⟨⟨hlacks⟩, -⟩ | ⟨hlt, hstop, hspan, -⟩
  · cases hlacks
  · exact ⟨Script.parse_emptyClause, hcontains, hlt, hstop, hspan hempty⟩

end ScriptOutline
