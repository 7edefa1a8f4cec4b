import CypherQuery.Proofs.PatternText.Promptness

/-! # Errors of pattern text point at the earliest token

An error points at the first token that cannot go on with the tokens before it,
`PatternError.PointsAt`. Those can be completed to a pattern, but no pattern starts with them and
that token (`parse_rejects_earliest`). An error behind the text says that the tokens are only the
start of a pattern. What is known of tokens from `Prompt` is carried over to places in the
source. -/

namespace CypherQuery

/-- Where an error in a text points, given the tokens `before` the first one that cannot go on, and
the others. -/
inductive PatternError.PointsAt (error : PatternError) (source : String)
    (before : List (Located Token)) : List (Located Token) → Prop where
  /-- Behind the text, if all tokens can go on. -/
  | atEnd (other : error.fault ≠ .bothDirections)
      (span : error.span = ⟨byteLength source.toList, byteLength source.toList⟩) :
      PointsAt error source before []
  /-- At the token that cannot go on. -/
  | atToken {token : Located Token} {behind : List (Located Token)}
      (other : error.fault ≠ .bothDirections) (span : error.span = token.span) :
      PointsAt error source before (token :: behind)
  /-- At a relationship from its first arrow up to the second one, which cannot go on. -/
  | atArrows {earlier inside behind : List (Located Token)} {first second : Located Token}
      {details : Direction → Relationship} (both : error.fault = .bothDirections)
      (split : before = earlier ++ first :: inside) (opens : first.value = .leftArrow)
      (areDetails : Grammar.Details (inside.map Located.value) details)
      (closes : second.value = .rightArrow)
      (span : error.span = ⟨first.span.start, second.span.stop⟩) :
      PointsAt error source before (second :: behind)

/-- Without the tokens in front, of which there are as many as the others are fewer, the others are
left: how `Rejection.span` finds its tokens. -/
theorem drop_length_sub {α β : Type} (before rest : List α) (others : List β)
    (same : others.length = rest.length) :
    (before ++ rest).drop ((before ++ rest).length - others.length) = rest := by
  rw [same, List.length_append, Nat.add_sub_cancel, List.drop_left]

/-- The error made of a rejection, with `Rejection.span` for its span, points at what the rejection
blames. -/
theorem Rejection.Blames.pointsAt {before rest : List (Located Token)} {rejection : Rejection}
    (blames : rejection.Blames ((before ++ rest).map Located.value) (rest.map Located.value))
    (source : String) :
    PatternError.PointsAt
      ⟨rejection.fault, rejection.span (before ++ rest) (byteLength source.toList), source⟩
      source before rest := by
  have last := drop_length_sub before rest (rest.map Located.value) (List.length_map _)
  cases blames with
  | next atToken =>
      rcases rest with _ | ⟨token, behind⟩
      · refine .atEnd atToken.ne_bothDirections ?_
        simp only [Rejection.span, last]
      · refine .atToken atToken.ne_bothDirections ?_
        simp only [Rejection.span, last]
  | @arrows front inside behind details split areDetails second =>
      rcases rest with _ | ⟨token, others⟩
      · cases second
      -- The tokens of the relationship are the last ones before the second arrow.
      have values : before.map Located.value = front ++ .leftArrow :: inside := by
        rw [List.map_append, ← List.cons_append, ← List.append_assoc] at split
        exact List.append_cancel_right split
      obtain ⟨earlier, relationship, rfl, -, opened⟩ := List.map_eq_append_iff.mp values
      obtain ⟨first, within, rfl, opens, rfl⟩ := List.map_eq_cons_iff.mp opened
      have since := drop_length_sub earlier (first :: within ++ token :: others)
        (Token.leftArrow :: (within.map Located.value ++ (token :: others).map Located.value))
        (by simp)
      rw [← List.append_assoc] at since
      refine .atArrows rfl rfl opens areDetails (List.cons.inj second).1 ?_
      simp only [Rejection.span, last, since]
      rfl

namespace Pattern

/-- A text with tokens and without faults is parsed by `Reading.pattern` on its tokens. -/
theorem parse_of_isClean {source : String} (clean : (scan source).isClean = true)
    (nonempty : (scan source).tokens ≠ []) :
    parse source = (Reading.pattern ((scan source).tokens.map Located.value)).mapError
      fun rejection => ⟨rejection.fault,
        rejection.span (scan source).tokens (byteLength source.toList), source⟩ := by
  rw [Scan.isClean, List.isEmpty_iff] at clean
  unfold parse
  dsimp only
  split
  · next faulty => rw [clean] at faulty; cases faulty
  · next none => exact absurd none nonempty
  · rcases Reading.pattern ((scan source).tokens.map Located.value) with rejection | found
    · rfl
    · rfl

/-- An error in a text that scans without faults into at least one token points,
`PatternError.PointsAt`, at the first token that cannot go on with those before it: those can be
completed to tokens that `Reading.pattern` accepts, and no accepted tokens start with them and that
token. If there is no such token, the error points behind the text, and all tokens can be completed
but are no pattern. -/
theorem parse_rejects_earliest {source : String} {error : PatternError}
    (clean : (scan source).isClean = true) (nonempty : (scan source).tokens ≠ [])
    (failed : parse source = .error error) :
    ∃ before rest, (scan source).tokens = before ++ rest ∧
      error.PointsAt source before rest ∧
      (∃ more found, (∀ token ∈ more, token.IsScanned) ∧
        Reading.pattern (before.map Located.value ++ more) = .ok found) ∧
      (∀ last behind, rest = last :: behind → ∀ other found,
        Reading.pattern (before.map Located.value ++ last.value :: other) ≠ .ok found) ∧
      (rest = [] → ∀ found, Reading.pattern (before.map Located.value) ≠ .ok found) := by
  rw [parse_of_isClean clean nonempty] at failed
  generalize (scan source).tokens = tokens at failed
  rcases read : Reading.pattern (tokens.map Located.value) with rejection | found
  · rw [read] at failed
    cases failed
    obtain ⟨used, others, split, blames, ⟨more, found, scanned, derived⟩, rejects⟩ :=
      Reading.pattern_eq_error read
    obtain ⟨before, rest, rfl, rfl, rfl⟩ := List.map_eq_append_iff.mp split
    refine ⟨before, rest, rfl, blames.pointsAt source,
      ⟨more, found, scanned, Reading.pattern_of_derived derived⟩, ?_, ?_⟩
    · rintro last behind rfl other found
      exact rejects (last.value :: other) rfl found
    · rintro rfl found accepted
      exact rejects [] rfl found ((List.append_nil _).symm ▸ accepted)
  · rw [read] at failed
    cases failed

/-- A relationship with an arrow at both ends. -/
def twoArrows : String :=
  "(a)<-[:T]->(b)"

/-- The error in `twoArrows` is blamed on the relationship up to the second arrow. -/
theorem parse_rejects_earliest_twoArrows :
    (scan twoArrows).isClean = true ∧ (scan twoArrows).tokens ≠ [] ∧
    ∃ error, parse twoArrows = .error error ∧
      error.fault = .bothDirections ∧ error.span = ⟨3, 11⟩ ∧
      ∃ before rest, (scan twoArrows).tokens = before ++ rest ∧
        error.PointsAt twoArrows before rest ∧
        ∃ more found, Reading.pattern (before.map Located.value ++ more) = .ok found := by
  have clean : (scan twoArrows).isClean = true := by decide +kernel
  have tokens : (scan twoArrows).tokens =
      [⟨.leftParen, ⟨0, 1⟩⟩, ⟨.identifier "a", ⟨1, 2⟩⟩, ⟨.rightParen, ⟨2, 3⟩⟩,
        ⟨.leftArrow, ⟨3, 5⟩⟩, ⟨.leftBracket, ⟨5, 6⟩⟩, ⟨.colon, ⟨6, 7⟩⟩,
        ⟨.identifier "T", ⟨7, 8⟩⟩, ⟨.rightBracket, ⟨8, 9⟩⟩, ⟨.rightArrow, ⟨9, 11⟩⟩,
        ⟨.leftParen, ⟨11, 12⟩⟩, ⟨.identifier "b", ⟨12, 13⟩⟩, ⟨.rightParen, ⟨13, 14⟩⟩] := by
    decide +kernel
  have nonempty : (scan twoArrows).tokens ≠ [] := by rw [tokens]; nofun
  let arrows : List Token := [.leftArrow, .leftBracket, .colon, .identifier "T", .rightBracket,
    .rightArrow, .leftParen, .identifier "b", .rightParen]
  have steps : Reading.hops arrows = .error ⟨.bothDirections, arrows, arrows.drop 5⟩ := by
    rw [Reading.hops_eq rfl]
    rfl
  have element : Reading.element (.leftParen :: .identifier "a" :: .rightParen :: arrows) =
      .error ⟨.bothDirections, arrows, arrows.drop 5⟩ := by
    show (Reading.hops arrows >>= _) = _
    rw [steps]
    rfl
  have failed : parse twoArrows = .error ⟨.bothDirections, ⟨3, 11⟩, twoArrows⟩ := by
    rw [parse_of_isClean clean nonempty, tokens]
    have read : Reading.pattern (.leftParen :: .identifier "a" :: .rightParen :: arrows) =
        .error ⟨.bothDirections, arrows, arrows.drop 5⟩ := by
      rw [Reading.pattern, Reading.commaSeparated_eq, element]
      rfl
    exact congrArg (Except.mapError _) read
  obtain ⟨before, rest, split, points, ⟨more, found, -, accepted⟩, -⟩ :=
    parse_rejects_earliest clean nonempty failed
  exact ⟨clean, nonempty, _, failed, rfl, rfl, before, rest, split, points, more, found, accepted⟩

end Pattern

end CypherQuery
