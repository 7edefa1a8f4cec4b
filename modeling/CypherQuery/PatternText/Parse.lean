import CypherQuery.PatternText.Reader
import CypherQuery.Token.Scan

/-! # Parsing pattern text

A text is scanned, `scan`, and its tokens are read by `Reading.pattern`. A fault of the scan comes
first, whatever the tokens are; only then the first token that cannot go on is to blame. -/

namespace CypherQuery

/-- The bytes of the tokens that a rejection blames, from the first token of `since` to the first of
`rest`. At the end of the text there is no such token, and the span is empty. -/
def Rejection.span (tokens : List (Located Token)) (length : Nat) (rejection : Rejection) : Span :=
  let since := tokens.drop (tokens.length - rejection.since.length)
  let rest := tokens.drop (tokens.length - rejection.rest.length)
  match since, rest with
  | first :: _, last :: _ => ⟨first.span.start, last.span.stop⟩
  | _, _ => ⟨length, length⟩

/-- Why a text is no token: digits are an integer that is too large, `outOfRange`; all else is
`unexpectedInput`. -/
def PatternFault.ofText (text : List Char) : PatternFault :=
  if !text.isEmpty && text.all Char.isDigit then outOfRange (String.ofList text)
  else unexpectedInput (String.ofList text)

namespace Pattern

/-- The pattern that a text stands for, or the error that is found first: a fault of `scan`, no
tokens at all, or the rejection of `Reading.pattern`. -/
def parse (source : String) : Except PatternError Pattern :=
  let text := source.toList
  let scanned := scan source
  match scanned.faults, scanned.tokens with
  -- The first fault is to blame even if the tokens before it are no pattern either.
  | span :: _, _ => .error ⟨.ofText (span.slice text), span, source⟩
  | [], [] => .error ⟨.empty, ⟨0, byteLength text⟩, source⟩
  | [], tokens =>
      match Reading.pattern (tokens.map Located.value) with
      | .ok pattern => .ok pattern
      | .error rejection =>
          .error ⟨rejection.fault, rejection.span tokens (byteLength text), source⟩

end Pattern

end CypherQuery
