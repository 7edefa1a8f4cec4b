import CypherQuery.Proofs.PatternText.Earliest
import CypherQuery.Proofs.Token.Overflow

/-! # Spans of errors in pattern text

Every error blames a part of the source that lies between whole characters, `Span.IsWithin`. A fault
of the scan is blamed before anything else, and only such a fault can be out of range. Without
faults the span comes from the tokens: it is that of the first one that cannot go on, or it reaches
from one arrow of a relationship to the other. The relation `Fails` lists the ways to fail, and the
statements about all errors, up to `errors_span_parts_of_source`, go through its cases. -/

namespace CypherQuery

/-! ## What is out of range -/

namespace PatternFault

/-- Nothing else has the message that some digits are out of range: `message` tells `outOfRange`
from all other faults. -/
theorem message_eq_outOfRange_iff {fault : PatternFault} {digits : String} :
    fault.message = (outOfRange digits).message ↔ fault = outOfRange digits := by
  refine ⟨fun same => ?_, congrArg message⟩
  have letters := congrArg String.toList same
  cases fault
  case outOfRange own =>
    unfold message at same
    rw [String.append_left_inj, String.append_right_inj] at same
    rw [same]
  -- All other messages start with another letter.
  all_goals
    unfold message at letters
    simp at letters

/-- A text is out of range, by `PatternFault.ofText`, exactly if it consists of digits, of which
there are some. -/
theorem ofText_eq_outOfRange_iff {text : List Char} {digits : String} :
    ofText text = .outOfRange digits ↔
      (text ≠ [] ∧ ∀ c ∈ text, c.isDigit = true) ∧ digits = String.ofList text := by
  have asked : (!text.isEmpty && text.all Char.isDigit) = true ↔
      text ≠ [] ∧ ∀ c ∈ text, c.isDigit = true := by
    simp
  rw [ofText, ← asked]
  split
  · next digits => simp [digits, eq_comm]
  · next other => simp [other]

end PatternFault

/-- An error says of some digits, by its message, that they are out of range. -/
def PatternError.IsOutOfRange (error : PatternError) : Prop :=
  ∃ digits, error.diagnostic.message = "integer literal `" ++ digits ++ "` is out of range"

/-- The `fault` of an error tells whether its message says that digits are out of range. -/
theorem PatternError.isOutOfRange_iff {error : PatternError} :
    error.IsOutOfRange ↔ ∃ digits, error.fault = .outOfRange digits :=
  exists_congr fun _ => PatternFault.message_eq_outOfRange_iff

/-- Readers blame tokens, never digits: no fault that a rejection `Blames` is `outOfRange`. -/
theorem Rejection.Blames.ne_outOfRange {tokens rest : List Token} {rejection : Rejection}
    (blames : rejection.Blames tokens rest) (digits : String) :
    rejection.fault ≠ .outOfRange digits := by
  cases blames with
  | next atToken =>
      rintro rfl
      exact atToken
  | arrows => nofun

/-! ## Spans from the tokens -/

/-- A span that is made of tokens, as `PatternError.PointsAt` says, lies within the source. -/
theorem PatternError.PointsAt.isWithin {error : PatternError} {source : String}
    {before rest : List (Located Token)} (points : error.PointsAt source before rest)
    (split : (scan source).tokens = before ++ rest) : error.span.IsWithin source := by
  have fits {token : Located Token} (member : token ∈ before ++ rest) : token.span.Fits source :=
    fits_of_mem_spans (List.mem_append_left _ (List.mem_map_of_mem (split ▸ member)))
  cases points with
  | atEnd _ span =>
      have behind : source.toList = source.toList ++ ([] ++ []) := by simp
      rw [span]
      exact Span.isWithin_of_cut behind
  | atToken _ span =>
      rw [span]
      exact (fits (List.mem_append_right _ List.mem_cons_self)).isWithin
  | @atArrows earlier inside behind first second details _ opened _ _ _ span =>
      subst opened
      have one : first.span.Fits source := fits (by simp)
      have other : second.span.Fits source := fits (by simp)
      have follow : first.span.stop ≤ second.span.start := by
        have ordered := pairwise_tokens_scan source
        rw [split, List.map_append, List.pairwise_append] at ordered
        exact ordered.2.2 _ (List.mem_map_of_mem (by simp)) _ (List.mem_map_of_mem (by simp))
      have forward : first.span.start ≤ second.span.stop := by
        have := one.nonempty
        have := other.nonempty
        omega
      rw [span]
      exact ⟨forward, other.inside, one.startsBetween, other.stopsBetween⟩

namespace Pattern

/-! ## Why a text is no pattern -/

/-- The first fault of a `scan` is to blame, whatever the tokens are. -/
theorem parse_of_faults {source : String} {span : Span} {others : List Span}
    (faulty : (scan source).faults = span :: others) :
    parse source = .error ⟨.ofText (span.slice source.toList), span, source⟩ := by
  unfold parse
  dsimp only
  rw [faulty]

/-- Why a text is no pattern, and the error that says so: one case for each way through `parse`. -/
inductive Fails (source : String) : PatternError → Prop where
  /-- There are faults in the text, of which the first one is to blame. -/
  | atFault {fault : Span} {others : List Span} (faulty : (scan source).faults = fault :: others) :
      Fails source ⟨.ofText (fault.slice source.toList), fault, source⟩
  /-- There are neither faults nor tokens in the text. -/
  | nothing (clean : (scan source).faults = []) (none : (scan source).tokens = []) :
      Fails source ⟨.empty, ⟨0, byteLength source.toList⟩, source⟩
  /-- There are tokens and no faults in the text, but the tokens are rejected. -/
  | rejected {rejection : Rejection} (clean : (scan source).faults = [])
      (nonempty : (scan source).tokens ≠ [])
      (read : Reading.pattern ((scan source).tokens.map Located.value) = .error rejection) :
      Fails source ⟨rejection.fault,
        rejection.span (scan source).tokens (byteLength source.toList), source⟩

/-- If `parse` fails, then by one of the cases of `Fails`. -/
theorem fails_of_parse {source : String} {error : PatternError}
    (failed : parse source = .error error) : Fails source error := by
  unfold parse at failed
  dsimp only at failed
  split at failed
  · next fault others faulty =>
      cases failed
      exact .atFault faulty
  · next clean none =>
      cases failed
      exact .nothing clean none
  · next clean nonempty =>
      rcases read : Reading.pattern ((scan source).tokens.map Located.value) with rejection | found
      · rw [read] at failed
        cases failed
        exact .rejected clean nonempty read
      · rw [read] at failed
        cases failed

/-- An error is `outOfRange` exactly if the first fault of the scan covers digits,
`Span.CoversDigits`. -/
theorem Fails.outOfRange_iff {source digits : String} {error : PatternError}
    (fails : Fails source error) :
    error.fault = .outOfRange digits ↔ ∃ fault others, (scan source).faults =
      fault :: others ∧ fault.CoversDigits source ∧
        digits = String.ofList (fault.slice source.toList) := by
  cases fails with
  | @atFault fault others faulty =>
      rw [PatternFault.ofText_eq_outOfRange_iff, faulty]
      constructor
      · rintro ⟨covers, same⟩
        exact ⟨fault, others, rfl, covers, same⟩
      · rintro ⟨_, _, ⟨⟩, covers, same⟩
        exact ⟨covers, same⟩
  | nothing clean none => simp [clean]
  | rejected clean nonempty read =>
      obtain ⟨_, _, -, blames, -⟩ := Reading.pattern_eq_error read
      simp [clean, blames.ne_outOfRange]

/-- The message of an error tells, by `IsOutOfRange`, whether the first fault of the scan covers
digits. -/
theorem Fails.isOutOfRange_iff {source : String} {error : PatternError}
    (fails : Fails source error) :
    error.IsOutOfRange ↔ ∃ fault others, (scan source).faults = fault :: others ∧
      fault.CoversDigits source := by
  rw [PatternError.isOutOfRange_iff]
  constructor
  · rintro ⟨digits, large⟩
    obtain ⟨fault, others, faulty, covers, -⟩ := fails.outOfRange_iff.mp large
    exact ⟨fault, others, faulty, covers⟩
  · rintro ⟨fault, others, faulty, covers⟩
    exact ⟨_, fails.outOfRange_iff.mpr ⟨fault, others, faulty, covers, rfl⟩⟩

/-- The error of rejected tokens points, `PatternError.PointsAt`, at the first one that cannot go
on. -/
theorem exists_pointsAt {source : String} {rejection : Rejection}
    (read : Reading.pattern ((scan source).tokens.map Located.value) = .error rejection) :
    ∃ before rest, (scan source).tokens = before ++ rest ∧ PatternError.PointsAt
      ⟨rejection.fault, rejection.span (scan source).tokens (byteLength source.toList), source⟩
      source before rest := by
  obtain ⟨_, _, split, blames, -⟩ := Reading.pattern_eq_error read
  obtain ⟨before, rest, whole, rfl, rfl⟩ := List.map_eq_append_iff.mp split
  rw [whole] at blames ⊢
  exact ⟨before, rest, rfl, blames.pointsAt source⟩

/-! ## Spans of errors -/

/-- The span of an error lies within the source, in each case of `Fails`. -/
theorem Fails.isWithin {source : String} {error : PatternError} (fails : Fails source error) :
    error.span.IsWithin source := by
  cases fails with
  | @atFault fault others faulty =>
      have member : fault ∈ (scan source).spans := by
        rw [Scan.spans, faulty]
        exact List.mem_append_right _ List.mem_cons_self
      exact (fits_of_mem_spans member).isWithin
  | nothing =>
      have whole : source.toList = [] ++ (source.toList ++ []) := by simp
      have within := Span.isWithin_of_cut whole
      rwa [byteLength_nil, Nat.zero_add] at within
  | rejected _ _ read =>
      obtain ⟨before, rest, split, points⟩ := exists_pointsAt read
      exact points.isWithin split

/-- A source with a fault is no pattern. Every error is about its source, and its span lies between
whole characters of it, `Span.IsWithin`. If there are faults, the span is that of the first one,
whatever the tokens before it are, and the message is that digits are out of range exactly if the
span covers digits (`Span.CoversDigits`), which is so exactly if they are an integer whose value is
too large (`Span.CoversLargeInteger`). If there are no faults, the span is the whole source if it
has no tokens. Otherwise it is that of one token, or empty and behind the source, or it reaches from
the first arrow of a relationship to its second one. -/
theorem errors_span_parts_of_source (source : String) :
    ((scan source).faults ≠ [] → ∃ error, parse source = .error error) ∧
    ∀ error, parse source = .error error →
      error.source = source ∧ error.span.IsWithin source ∧
      (∀ fault others, (scan source).faults = fault :: others →
        error.span = fault ∧ (∀ other ∈ others, fault.stop ≤ other.start) ∧
        (error.IsOutOfRange ↔ fault.CoversDigits source) ∧
        (fault.CoversDigits source ↔ fault.CoversLargeInteger source)) ∧
      ((scan source).faults = [] → ¬error.IsOutOfRange ∧
        ((scan source).tokens = [] → error.span = ⟨0, source.utf8ByteSize⟩) ∧
        ((scan source).tokens ≠ [] → ∃ before rest, (scan source).tokens = before ++ rest ∧
          error.PointsAt source before rest)) := by
  constructor
  · intro faulty
    obtain ⟨fault, others, same⟩ := List.exists_cons_of_ne_nil faulty
    exact ⟨_, parse_of_faults same⟩
  · intro error failed
    have fails := fails_of_parse failed
    refine ⟨?_, fails.isWithin, fun fault others faulty => ?_, fun clean => ?_⟩
    · cases fails <;> rfl
    · have ordered := pairwise_faults_scan source
      have outOfRange := fails.isOutOfRange_iff
      rw [faulty] at ordered outOfRange
      rw [parse_of_faults faulty] at failed
      cases failed
      exact ⟨rfl, (List.pairwise_cons.mp ordered).1, by simpa using outOfRange,
        coversDigits_iff (faulty ▸ List.mem_cons_self)⟩
    · rw [fails.isOutOfRange_iff, clean]
      refine ⟨nofun, ?_⟩
      cases fails with
      | atFault faulty => rw [clean] at faulty; cases faulty
      | nothing _ none =>
          exact ⟨fun _ => congrArg (Span.mk 0) (byteLength_toList source),
            fun nonempty => absurd none nonempty⟩
      | rejected _ nonempty read =>
          exact ⟨fun none => absurd none nonempty, fun _ => exists_pointsAt read⟩

/-- Words that no pattern starts with, before an integer that is too large and another fault. -/
def misplacedInteger : String :=
  "\x60é\x60) 9223372036854775808 #"

/-- A node that is not closed. -/
def openNode : String :=
  "(\x60é\x60"

/-- In `misplacedInteger` the first fault is to blame before the tokens are; in `openNode` what is
missing is missing at the end. -/
theorem errors_span_parts_of_misplacedInteger :
    (∃ error, parse misplacedInteger = .error error ∧ error.span = ⟨6, 25⟩ ∧
      error.span.IsWithin misplacedInteger ∧ error.IsOutOfRange) ∧
    ∃ error, parse openNode = .error error ∧ error.span = ⟨5, 5⟩ ∧
      error.span.IsWithin openNode ∧ ¬error.IsOutOfRange ∧
      ∃ before rest, (scan openNode).tokens = before ++ rest ∧
        error.PointsAt openNode before rest := by
  constructor
  · have faulty : (scan misplacedInteger).faults = [⟨6, 25⟩, ⟨26, 27⟩] := by decide +kernel
    have digits : Span.CoversDigits ⟨6, 25⟩ misplacedInteger := by decide +kernel
    obtain ⟨rejects, spans⟩ := errors_span_parts_of_source misplacedInteger
    obtain ⟨error, failed⟩ := rejects (by rw [faulty]; nofun)
    obtain ⟨-, within, first, -⟩ := spans error failed
    obtain ⟨span, -, outOfRange, -⟩ := first _ _ faulty
    exact ⟨error, failed, span, within, outOfRange.mpr digits⟩
  · have clean : (scan openNode).faults = [] := by decide +kernel
    have tokens : (scan openNode).tokens =
        [⟨.leftParen, ⟨0, 1⟩⟩, ⟨.quotedName "é", ⟨1, 5⟩⟩] := by
      decide +kernel
    have nonempty : (scan openNode).tokens ≠ [] := by rw [tokens]; nofun
    have read : Reading.pattern [.leftParen, .quotedName "é"] =
        .error ⟨.expectedToken .rightParen none, [], []⟩ := by
      rw [Reading.pattern, Reading.commaSeparated_eq]
      rfl
    have failed : parse openNode =
        .error ⟨.expectedToken .rightParen none, ⟨5, 5⟩, openNode⟩ := by
      rw [parse_of_isClean (by rw [Scan.isClean, clean]; rfl) nonempty, tokens]
      exact congrArg (Except.mapError _) read
    obtain ⟨-, within, -, otherwise⟩ := (errors_span_parts_of_source openNode).2 _ failed
    obtain ⟨inRange, -, points⟩ := otherwise clean
    exact ⟨_, failed, rfl, within, inRange, points nonempty⟩

end Pattern

end CypherQuery
