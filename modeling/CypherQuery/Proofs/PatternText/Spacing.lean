import CypherQuery.Proofs.PatternText.Earliest
import CypherQuery.Proofs.Token.Coverage

/-! # Layout of pattern text

Blanks between tokens, before the first one and behind the last one can be chosen freely, as long as
there are some between any two: the source is then `Relaid` as another one. That one has the same
tokens (`Relaid.scan_eq`), stands for the same pattern, and if it is no pattern, the same tokens are
to blame (`parsing_ignores_layout`). -/

namespace CypherQuery

/-! ## Texts laid out anew -/

/-- The texts of some tokens of a source, cut out by `Span.slice`, one behind the other, with at
least one blank between any two of them, and perhaps blanks behind the last one. -/
inductive Spaced (source : String) : List (Located Token) → List Char → Prop where
  /-- A last token. -/
  | last {token : Located Token} {gap : List Char} (blanks : IsBlanks gap) :
      Spaced source [token] (token.span.slice source.toList ++ gap)
  /-- A token in front of others. -/
  | more {token : Located Token} {others : List (Located Token)} {gap text : List Char}
      (nonempty : gap ≠ []) (blanks : IsBlanks gap) (rest : Spaced source others text) :
      Spaced source (token :: others) (token.span.slice source.toList ++ (gap ++ text))

/-- The text `other` consists of the texts of the tokens of `source`, of which there is at least
one, with other blanks. -/
def Relaid (source other : String) : Prop :=
  ∃ lead body, IsBlanks lead ∧ other.toList = lead ++ body ∧
    Spaced source (scan source).tokens body

/-- Spans of two sources that stand at the same tokens: behind the last one, or from the token with
one number up to that with another. -/
inductive Span.SameTokens (source other : String) : Span → Span → Prop where
  /-- Behind both sources. -/
  | atEnd : SameTokens source other
      ⟨byteLength source.toList, byteLength source.toList⟩
      ⟨byteLength other.toList, byteLength other.toList⟩
  /-- From the token with one number up to the token with another. -/
  | between {i j : Nat} {first last otherFirst otherLast : Located Token} (ordered : i ≤ j)
      (starts : (scan source).tokens[i]? = some first)
      (stops : (scan source).tokens[j]? = some last)
      (otherStarts : (scan other).tokens[i]? = some otherFirst)
      (otherStops : (scan other).tokens[j]? = some otherLast) :
      SameTokens source other ⟨first.span.start, last.span.stop⟩
        ⟨otherFirst.span.start, otherLast.span.stop⟩

/-! ## Tokens of such texts -/

namespace Scan

/-- A text consists of the given tokens and of blanks: its `pieces` have no fault, and these
tokens. -/
def ConsistsOf (text : List Char) (tokens : List Token) : Prop :=
  (∀ part ∈ pieces text, part.isFault = false) ∧ tokensOf (pieces text) = tokens

/-- A source `ConsistsOf` tokens if they are those of its `scan`, which has no faults. -/
theorem consistsOf_iff {source : String} {tokens : List Token} :
    ConsistsOf source.toList tokens ↔
      (scan source).isClean = true ∧ (scan source).tokens.map Located.value = tokens := by
  rw [ConsistsOf, isClean_scan, tokens_scan]

/-- The empty text `ConsistsOf` no tokens. -/
theorem consistsOf_nil : ConsistsOf [] [] := by
  rw [ConsistsOf, pieces]
  exact ⟨List.forall_mem_nil _, rfl⟩

/-- Blanks in front of something `Visible` change no token. -/
theorem ConsistsOf.behindBlanks {gap rest : List Char} {tokens : List Token}
    (consists : ConsistsOf rest tokens) (blanks : IsBlanks gap) (visible : Visible rest) :
    ConsistsOf (gap ++ rest) tokens := by
  cases gap with
  | nil => exact consists
  | cons c gap =>
      rw [ConsistsOf, splits_blanks blanks rest visible]
      exact ⟨List.forall_mem_cons.mpr ⟨rfl, consists.1⟩, consists.2⟩

/-- The text of a token, a `Lexeme`, in front of what is `Parted` is one token more. -/
theorem ConsistsOf.behindLexeme {token : Token} {text rest : List Char} {tokens : List Token}
    (consists : ConsistsOf rest tokens) (lexeme : token.Lexeme text) (parted : Parted rest) :
    ConsistsOf (text ++ rest) (token :: tokens) := by
  rw [ConsistsOf, splits_lexeme lexeme rest parted]
  exact ⟨List.forall_mem_cons.mpr ⟨rfl, consists.1⟩, congrArg (token :: ·) consists.2⟩

/-- Blanks, `IsBlanks`, are `Parted`. -/
theorem parted_of_isBlanks {gap : List Char} (blanks : IsBlanks gap) : Parted gap :=
  fun c first => blanks c (List.mem_of_mem_head? first)

/-- What starts with blanks, of which there are some, is `Parted`. -/
theorem parted_append {gap : List Char} (nonempty : gap ≠ []) (blanks : IsBlanks gap)
    (text : List Char) : Parted (gap ++ text) := by
  cases gap with
  | nil => exact absurd rfl nonempty
  | cons c gap => exact fun d first => parted_of_isBlanks blanks d first

end Scan

/-- Tokens that are `Spaced` start visibly, and their text `ConsistsOf` them. -/
theorem Spaced.solid_consistsOf {source : String} {tokens : List (Located Token)}
    {text : List Char} (spaced : Spaced source tokens text)
    (lexemes : ∀ token ∈ tokens, token.value.Lexeme (token.span.slice source.toList)) :
    Scan.Solid text ∧ Scan.ConsistsOf text (tokens.map Located.value) := by
  induction spaced with
  | @last token gap blanks =>
      have lexeme := lexemes token List.mem_cons_self
      have alone : Scan.ConsistsOf gap [] := by
        rw [← List.append_nil gap]
        exact Scan.consistsOf_nil.behindBlanks blanks nofun
      exact ⟨(Scan.solid_lexeme lexeme).append gap,
        alone.behindLexeme lexeme (Scan.parted_of_isBlanks blanks)⟩
  | @more token others gap text nonempty blanks _ ih =>
      obtain ⟨lexeme, later⟩ := List.forall_mem_cons.mp lexemes
      obtain ⟨solid, consists⟩ := ih later
      exact ⟨(Scan.solid_lexeme lexeme).append _,
        (consists.behindBlanks blanks solid.visible_self).behindLexeme lexeme
          (Scan.parted_append nonempty blanks text)⟩

/-- A source that is `Relaid` has the same tokens and no faults. -/
theorem Relaid.scan_eq {source other : String} (relaid : Relaid source other) :
    (scan other).isClean = true ∧
      (scan other).tokens.map Located.value = (scan source).tokens.map Located.value := by
  obtain ⟨lead, body, blanks, whole, spaced⟩ := relaid
  obtain ⟨solid, consists⟩ := spaced.solid_consistsOf fun token => lexeme_of_mem_scan
  rw [← Scan.consistsOf_iff, whole]
  exact consists.behindBlanks blanks solid.visible_self

/-- There is a token in a source that is `Relaid`. -/
theorem Relaid.nonempty {source other : String} (relaid : Relaid source other) :
    (scan source).tokens ≠ [] := by
  obtain ⟨lead, body, -, -, spaced⟩ := relaid
  intro none
  rw [none] at spaced
  cases spaced

/-! ## Reading such texts -/

/-- A rejection blames no more tokens with its `rest` than there are from the first one, its
`since`. -/
theorem Rejection.Blames.length_rest_le {tokens rest : List Token} {rejection : Rejection}
    (blames : rejection.Blames tokens rest) :
    rejection.rest.length ≤ rejection.since.length := by
  cases blames with
  | next => exact Nat.le_refl _
  | arrows => simp only [List.length_cons, List.length_append]; omega

/-- The span of a rejection, `Rejection.span`, stands at the same tokens in all sources with as many
tokens. -/
theorem Rejection.sameTokens {source other : String} {rejection : Rejection}
    (ordered : rejection.rest.length ≤ rejection.since.length)
    (same : (scan other).tokens.length = (scan source).tokens.length) :
    Span.SameTokens source other
      (rejection.span (scan source).tokens (byteLength source.toList))
      (rejection.span (scan other).tokens (byteLength other.toList)) := by
  rw [Rejection.span, Rejection.span, same]
  generalize start : (scan source).tokens.length - rejection.since.length = i
  generalize stop : (scan source).tokens.length - rejection.rest.length = j
  have before : i ≤ j := by omega
  by_cases inside : j < (scan source).tokens.length
  · have starts : i < (scan source).tokens.length := by omega
    have otherStops : j < (scan other).tokens.length := by omega
    have otherStarts : i < (scan other).tokens.length := by omega
    simp only [List.drop_eq_getElem_cons, inside, starts, otherStops, otherStarts]
    exact .between before (List.getElem?_eq_getElem starts) (List.getElem?_eq_getElem inside)
      (List.getElem?_eq_getElem otherStarts) (List.getElem?_eq_getElem otherStops)
  · simp only [List.drop_eq_nil_of_le (Nat.le_of_not_lt inside),
      List.drop_eq_nil_of_le (same ▸ Nat.le_of_not_lt inside)]
    -- Without a last token to blame, it does not matter whether there is a first one.
    cases (scan source).tokens.drop i <;> cases (scan other).tokens.drop i <;> exact .atEnd

namespace Pattern

/-- The parser does not see layout. If `source` scans without faults, then its tokens with other
blanks between them, `Relaid`, scan to the same tokens, and they stand for the same pattern. If
`source` is no pattern, neither are they, for the same reason and with the same tokens to blame,
`Span.SameTokens`. -/
theorem parsing_ignores_layout {source other : String} (clean : (scan source).isClean = true)
    (relaid : Relaid source other) :
    (scan other).isClean = true ∧
    (scan other).tokens.map Located.value = (scan source).tokens.map Located.value ∧
    (∀ pattern, parse source = .ok pattern → parse other = .ok pattern) ∧
    ∀ error, parse source = .error error → ∃ again, parse other = .error again ∧
      again.fault = error.fault ∧ again.diagnostic = error.diagnostic ∧ again.source = other ∧
      Span.SameTokens source other error.span again.span := by
  obtain ⟨otherClean, same⟩ := relaid.scan_eq
  have sameLength : (scan other).tokens.length = (scan source).tokens.length := by
    simpa using congrArg List.length same
  have nonempty : (scan other).tokens ≠ [] := by
    rw [← List.length_pos_iff, sameLength, List.length_pos_iff]
    exact relaid.nonempty
  refine ⟨otherClean, same, ?_⟩
  -- Both sources are parsed by reading the same tokens.
  rw [parse_of_isClean clean relaid.nonempty, parse_of_isClean otherClean nonempty, same]
  rcases read : Reading.pattern ((scan source).tokens.map Located.value) with rejection | found
  · obtain ⟨_, _, -, blames, -⟩ := Reading.pattern_eq_error read
    constructor
    · rintro pattern ⟨⟩
    · rintro error ⟨⟩
      exact ⟨_, rfl, rfl, rfl, rfl, Rejection.sameTokens blames.length_rest_le sameLength⟩
  · constructor
    · rintro pattern ⟨⟩
      rfl
    · rintro error ⟨⟩

/-- A step with an arrow at both ends and nothing else. -/
def tightArrows : String :=
  "(n)<-->"

/-- The same step, with blanks wherever there can be some. -/
def looseArrows : String :=
  "\t( n )\r\n<- ->"

/-- The two arrows in `tightArrows` are to blame with blanks between them, in `looseArrows`, as
without. -/
theorem parsing_ignores_layout_arrows :
    (scan tightArrows).isClean = true ∧ Relaid tightArrows looseArrows ∧
    ∃ error again, parse tightArrows = .error error ∧ parse looseArrows = .error again ∧
      error.fault = .bothDirections ∧ error.span = ⟨3, 7⟩ ∧ again.fault = error.fault ∧
      Span.SameTokens tightArrows looseArrows error.span again.span := by
  have clean : (scan tightArrows).isClean = true := by decide +kernel
  have tokens : (scan tightArrows).tokens =
      [⟨.leftParen, ⟨0, 1⟩⟩, ⟨.identifier "n", ⟨1, 2⟩⟩, ⟨.rightParen, ⟨2, 3⟩⟩,
        ⟨.leftArrow, ⟨3, 5⟩⟩, ⟨.rightArrow, ⟨5, 7⟩⟩] := by
    decide +kernel
  have relaid : Relaid tightArrows looseArrows := by
    let own (start stop : Nat) := Span.slice ⟨start, stop⟩ tightArrows.toList
    have blank : IsBlanks [' '] := by decide +kernel
    have line : IsBlanks ['\r', '\n'] := by decide +kernel
    refine ⟨['\t'], own 0 1 ++ ([' '] ++ (own 1 2 ++ ([' '] ++ (own 2 3 ++ (['\r', '\n'] ++
      (own 3 5 ++ ([' '] ++ (own 5 7 ++ [])))))))), by decide +kernel, by decide +kernel, ?_⟩
    rw [tokens]
    refine .more nofun blank (.more nofun blank (.more nofun line ?_))
    exact .more nofun blank (.last (List.forall_mem_nil _))
  have failed : parse tightArrows = .error ⟨.bothDirections, ⟨3, 7⟩, tightArrows⟩ := by
    have steps : Reading.hops [.leftArrow, .rightArrow] =
        .error ⟨.bothDirections, [.leftArrow, .rightArrow], [.rightArrow]⟩ := by
      rw [Reading.hops_eq rfl]
      rfl
    have element : Reading.element [.leftParen, .identifier "n", .rightParen, .leftArrow,
        .rightArrow] = .error ⟨.bothDirections, [.leftArrow, .rightArrow], [.rightArrow]⟩ := by
      show (Reading.hops [.leftArrow, .rightArrow] >>= _) = _
      rw [steps]
      rfl
    have read : Reading.pattern [.leftParen, .identifier "n", .rightParen, .leftArrow,
        .rightArrow] = .error ⟨.bothDirections, [.leftArrow, .rightArrow], [.rightArrow]⟩ := by
      rw [Reading.pattern, Reading.commaSeparated_eq, element]
      rfl
    rw [parse_of_isClean clean relaid.nonempty, tokens]
    simp only [List.map_cons, List.map_nil, read]
    rfl
  obtain ⟨-, -, -, rejected⟩ := parsing_ignores_layout clean relaid
  obtain ⟨again, failedAgain, sameFault, -, -, sameTokens⟩ := rejected _ failed
  exact ⟨clean, relaid, _, again, failed, failedAgain, rfl, rfl, sameFault, sameTokens⟩

end Pattern

end CypherQuery
