import CypherQuery.Proofs.Build.Fault
import CypherQuery.Proofs.Render.Parallel

/-! # Options change the layout only

The text of a statement under other options has the same tokens, except that a name may be written
with or without quotation (`Token.Requoted`), and the same faults among them. Whether there is a
text, and which error there is otherwise, does not depend on the options either. The main statement
is `options_change_layout_only`. -/

namespace CypherQuery

/-! ## Pieces that differ in layout -/

/-- Tokens that differ at most in the quotation of a name that `Name.isPlain`. -/
inductive Token.Requoted : Token → Token → Prop where
  /-- The same token. -/
  | same (token : Token) : Requoted token token
  /-- A name that is quoted where it need not be. -/
  | quoted {own : String} (plain : Name.isPlain own = true) :
      Requoted (.identifier own) (.quotedName own)
  /-- A quoted name that is written bare. -/
  | bare {own : String} (plain : Name.isPlain own = true) :
      Requoted (.quotedName own) (.identifier own)

/-- Pieces that differ at most in the quotation of a name, `Token.Requoted`, or in the kind of
blanks. -/
inductive Piece.Relaid : Piece → Piece → Prop where
  /-- Blanks. -/
  | blank (text other : List Char) : Relaid (.blank text) (.blank other)
  /-- Tokens. -/
  | token {found twin : Token} (requoted : found.Requoted twin) (text other : List Char) :
      Relaid (.token found text) (.token twin other)
  /-- The same fault. -/
  | fault (text : List Char) : Relaid (.fault text) (.fault text)

namespace Piece.Relaid

/-- A piece does not differ from itself: `Relaid` is reflexive. -/
theorem refl (part : Piece) : part.Relaid part := by
  cases part with
  | blank text => exact .blank text text
  | token found text => exact .token (.same found) text text
  | fault text => exact .fault text

/-- A name is written in the same way under all options, `Spelling.name`, up to quotation. -/
theorem name (config other : RenderConfig) (own : String) :
    (Spelling.name config own).Relaid (Spelling.name other own) := by
  have plain {options : RenderConfig}
      (bare : (!options.alwaysEscapeNames && Name.isPlain own) = true) :
      Name.isPlain own = true := (Bool.and_eq_true_iff.mp bare).2
  rw [Spelling.name, Spelling.name]
  split
  · next bare =>
      split
      · exact .token (.same _) _ _
      · exact .token (.quoted (plain bare)) _ _
  · split
    · next bare => exact .token (.bare (plain bare)) _ _
    · exact .token (.same _) _ _

variable {parts twins : List Piece}

/-- The tokens among pieces that are `Relaid` differ at most in the quotation of names. -/
theorem tokens (relaid : List.Forall₂ Piece.Relaid parts twins) :
    List.Forall₂ Token.Requoted (tokensOf parts) (tokensOf twins) := by
  induction relaid with
  | nil => exact .nil
  | cons first _ ih =>
      cases first with
      | blank => exact ih
      | token requoted => exact .cons requoted ih
      | fault => exact ih

/-- The faults among pieces that are `Relaid` are the same, behind as many tokens: `places`. -/
theorem places_eq (relaid : List.Forall₂ Piece.Relaid parts twins) (count : Nat) :
    places count parts = places count twins := by
  induction relaid generalizing count with
  | nil => rfl
  | cons first _ ih =>
      cases first with
      | blank => exact ih count
      | token => exact ih (count + 1)
      | fault text => exact congrArg (_ :: ·) (ih count)

end Piece.Relaid

/-- Pieces that run in `Parallel` differ in layout only: they are `Relaid` one by one. -/
theorem Parallel.relaid {config other : RenderConfig} {parts twins : List Piece}
    {listed : List Part} (parallel : Parallel config other parts twins listed) :
    List.Forall₂ Piece.Relaid parts twins := by
  induction parallel with
  | nil => exact .nil
  | fixed _ _ ih => exact .cons (.refl _) ih
  | gap _ ih => exact .cons (.blank _ _) ih
  | name own _ ih => exact .cons (.name config other own) ih
  | listed _ _ ih => exact ih
  | parameter own _ ih => exact List.rel_append (List.forall₂_same.mpr fun part _ => .refl part) ih

/-! ## Texts -/

/-- Under any two options a built statement, `IsBuilt`, that calls functions of the builders is
rendered under both, or under neither and with the same error. The two texts have the same tokens,
except that a name that needs no quotation may be quoted in one of them only (`Token.Requoted`), and
the same faults behind as many tokens (`faultPlaces`). -/
theorem options_change_layout_only {s : Statement} (made : s.IsBuilt)
    (built : ∀ part ∈ s.preorder, part.callsBuilt = true) (config other : RenderConfig) :
    (∃ failure, Renderer.render ⟨config⟩ s = .error failure ∧
      Renderer.render ⟨other⟩ s = .error failure) ∨
    ∃ text twin, Renderer.render ⟨config⟩ s = .ok text ∧ Renderer.render ⟨other⟩ s = .ok twin ∧
      List.Forall₂ Token.Requoted ((scan text).tokens.map Located.value)
        ((scan twin).tokens.map Located.value) ∧
      faultPlaces text = faultPlaces twin := by
  have hinges (options : RenderConfig) : HingesOn s.demands (Renderer.render ⟨options⟩ s) := by
    obtain ⟨reading, returning, rfl, reads, ordered⟩ := made.exists_clauses
    exact Renderer.render_hingesOn options reads ordered
  rcases rendered : Renderer.render ⟨config⟩ s with failure | text
  · have failed := ((hinges config).error_iff failure).mp rendered
    exact .inl ⟨failure, rfl, ((hinges other).error_iff failure).mpr failed⟩
  · have met := (hinges config).ok_iff.mp ⟨text, rendered⟩
    obtain ⟨twin, renderedTwin⟩ := (hinges other).ok_iff.mpr met
    refine .inr ⟨text, twin, rfl, renderedTwin, ?_⟩
    have relaid := (parallel_statement config other s).relaid
    rw [tokens_scan, tokens_scan, faultPlaces_eq, faultPlaces_eq, pieces_render built rendered,
      pieces_render built renderedTwin]
    exact ⟨Piece.Relaid.tokens relaid, Piece.Relaid.places_eq relaid 0⟩

/-- Calls with line breaks and back-quotes in names and strings. -/
def lineBreakCalls : List StagedCall :=
  [.common (.matching false
      ⟨[.chain
        ⟨⟨some "a\nb\x60", ["Person"], some ⟨[⟨"key", .literal (.string "\x60\n'")⟩]⟩⟩,
          [⟨⟨none, ["KNOWS"], none, .outgoing⟩, ⟨some "friend", [], none⟩⟩]⟩]⟩),
    .common (.filter
      (.comparison .lessOrEqual (.property (.variable "friend") "age") (.parameter "a b"))),
    .common (.returning false [.variable "friend", .literal (.integer (-7))])]

/-- The texts of `lineBreakCalls` under two options differ, but have the same tokens and faults up
to the quotation of names. -/
theorem options_change_layout_only_lineBreaks :
    ∃ s, Statement.ofCalls? lineBreakCalls = some s ∧
      (∀ part ∈ s.preorder, part.callsBuilt = true) ∧
      ∃ text twin, Renderer.render ⟨.plain⟩ s = .ok text ∧
        Renderer.render ⟨⟨true, true⟩⟩ s = .ok twin ∧ text ≠ twin ∧
        List.Forall₂ Token.Requoted ((scan text).tokens.map Located.value)
          ((scan twin).tokens.map Located.value) ∧
        faultPlaces text = faultPlaces twin := by
  obtain ⟨s, made⟩ : ∃ s, Statement.ofCalls? lineBreakCalls = some s := ⟨_, rfl⟩
  have built : ∀ part ∈ s.preorder, part.callsBuilt = true := by
    cases made
    decide
  have differ : Renderer.render ⟨.plain⟩ s ≠ Renderer.render ⟨⟨true, true⟩⟩ s := by
    cases made
    decide +kernel
  obtain ⟨text, rendered⟩ : ∃ text, Renderer.render ⟨.plain⟩ s = .ok text := by
    cases made
    exact ⟨_, rfl⟩
  rcases options_change_layout_only (.staged lineBreakCalls made) built .plain ⟨true, true⟩ with
    ⟨failure, failed, -⟩ | ⟨_, twin, same, renderedTwin, tokens, faults⟩
  · rw [rendered] at failed
    cases failed
  · rw [rendered] at same
    cases same
    refine ⟨s, made, built, text, twin, rendered, renderedTwin, ?_, tokens, faults⟩
    rintro rfl
    exact differ (rendered.trans renderedTwin.symm)

end CypherQuery
