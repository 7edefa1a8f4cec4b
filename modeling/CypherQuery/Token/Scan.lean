import CypherQuery.Text.Span
import CypherQuery.Token.Basic

/-! # Scanning

Source text is cut by `pieces` into blanks, tokens, and faults where no token starts. At each place
the longest token wins. Nothing is lost: the texts of the pieces, put together, are the source
(`flatMap_text_pieces`). Tokens and faults are then located by the bytes that come before them, and
make up the `scan` of a source. -/

namespace CypherQuery

/-- The characters between tokens: space, tabulator, carriage return, line feed, form feed. -/
def isBlank (c : Char) : Bool :=
  c == ' ' || c == '\t' || c == '\r' || c == '\n' || c == '\x0c'

/-- A piece of source text. -/
inductive Piece where
  /-- Text between tokens. -/
  | blank (text : List Char)
  /-- A token and the text it is read from. -/
  | token (token : Token) (text : List Char)
  /-- Text that is no token. -/
  | fault (text : List Char)
  deriving DecidableEq, Repr

namespace Piece

/-- The text that a piece covers. -/
def text : Piece → List Char
  | .blank text | .token _ text | .fault text => text

/-- The token that a piece is. -/
def token? : Piece → Option Token
  | .token found _ => some found
  | .blank _ | .fault _ => none

/-- Whether a piece is no token. -/
def isFault : Piece → Bool
  | .fault _ => true
  | .blank _ | .token _ _ => false

end Piece

namespace Scan

/-! ## One piece

Each function reads the piece that starts with a certain character `c`, given the text behind that
character, and gives the rest of the text with it; `piece` chooses among them. -/

/-- A run of blanks: `c` and all that follows up to the next visible character. -/
def blank (c : Char) (text : List Char) : Piece × List Char :=
  (.blank (c :: text.takeWhile isBlank), text.dropWhile isBlank)

/-- A name without quotation: `c` and all that follows of characters `Name.isPart`. -/
def identifier (c : Char) (text : List Char) : Piece × List Char :=
  let name := c :: text.takeWhile Name.isPart
  (.token (.identifier (String.ofList name)) name, text.dropWhile Name.isPart)

/-- A reference to a parameter, behind its mark `c`; the mark is a fault if no identifier
follows. -/
def parameter (c : Char) (text : List Char) : Piece × List Char :=
  match text with
  | [] => (.fault [c], [])
  | d :: rest =>
      if Name.isStart d then
        let name := d :: rest.takeWhile Name.isPart
        (.token (.parameter (String.ofList name)) (c :: name), rest.dropWhile Name.isPart)
      else (.fault [c], d :: rest)

/-- An integer, if its value, `ofDigits`, is at most `Int64.maxValue`; otherwise its digits are a
fault. -/
def integer (text : List Char) : Piece :=
  let value := ofDigits text
  if value ≤ Int64.maxValue.toNatClampNeg then .token (.integer (Int64.ofNat value)) text
  else .fault text

/-- A number: a `float` if a point and digits follow the first digits, and otherwise an
`integer`. -/
def number (c : Char) (text : List Char) : Piece × List Char :=
  let whole := c :: text.takeWhile Char.isDigit
  let rest := text.dropWhile Char.isDigit
  match rest with
  | p :: d :: behind =>
      -- A point without a digit behind it is left for a token of its own.
      if p = '.' ∧ d.isDigit then
        let fraction := d :: behind.takeWhile Char.isDigit
        let value := Binary64.ofDecimal (ofDigits (whole ++ fraction)) (-(fraction.length : Int))
        (.token (.float value) (whole ++ p :: fraction), behind.dropWhile Char.isDigit)
      else (integer whole, rest)
  | _ => (integer whole, rest)

/-- A name behind its opening back-quote, read by `QuotedName.decode?`; without a closing one all
the rest is a fault. -/
def quotedName (c : Char) (text : List Char) : Piece × List Char :=
  match QuotedName.decode? text with
  | some (name, rest) =>
      (.token (.quotedName (String.ofList name)) (c :: QuotedName.double name ++ [backQuote]), rest)
  | none => (.fault (c :: text), [])

/-- A string behind its opening mark, read by `QuotedString.body`; without a closing one the mark
and what could be inside the string are a fault. -/
def string (c : Char) (text : List Char) : Piece × List Char :=
  let (inside, rest) := QuotedString.body c text
  match rest with
  | [] => (.fault (c :: inside), [])
  | d :: behind =>
      if d = c then
        (.token (.string (String.ofList (QuotedString.unescape inside))) (c :: inside ++ [d]),
          behind)
      else (.fault (c :: inside), d :: behind)

/-- The token `both` of two marks if the `second` one follows, and otherwise `alone`, what one mark
alone is. -/
def arrow (c second : Char) (both : Token) (alone : Piece) (text : List Char) :
    Piece × List Char :=
  match text with
  | [] => (alone, [])
  | d :: rest => if d = second then (.token both [c, d], rest) else (alone, d :: rest)

/-- The tokens of one mark; `none` for a character that is not one of them. -/
def mark? (c : Char) : Option Token :=
  if c = '(' then some .leftParen
  else if c = ')' then some .rightParen
  else if c = '[' then some .leftBracket
  else if c = ']' then some .rightBracket
  else if c = '\x7b' then some .leftBrace
  else if c = '\x7d' then some .rightBrace
  else if c = ':' then some .colon
  else if c = ',' then some .comma
  else if c = '|' then some .pipe
  else if c = '.' then some .dot
  else if c = '*' then some .star
  else none

/-- The piece that starts with the character `c`, and the rest of the text; `c` alone decides what
is scanned. -/
def piece (c : Char) (text : List Char) : Piece × List Char :=
  if isBlank c then blank c text
  else if Name.isStart c then identifier c text
  else if c.isDigit then number c text
  else if c = '$' then parameter c text
  else if c = backQuote then quotedName c text
  else if c = singleQuote ∨ c = doubleQuote then string c text
  else if c = '-' then arrow c '>' .rightArrow (.token .dash [c]) text
  else if c = '<' then arrow c '-' .leftArrow (.fault [c]) text
  else
    match mark? c with
    | some token => (.token token [c], text)
    | none => (.fault [c], text)

/-! ## Nothing is lost

Whatever piece is found, its text and the rest are the text that was read: first for each kind of
piece, then for `piece`. -/

/-- The piece that `identifier` scans and the rest make up the text. -/
theorem identifier_append (c : Char) (text : List Char) :
    (identifier c text).1.text ++ (identifier c text).2 = c :: text := by
  simp [identifier, Piece.text]

/-- The piece that `parameter` scans and the rest make up the text. -/
theorem parameter_append (c : Char) (text : List Char) :
    (parameter c text).1.text ++ (parameter c text).2 = c :: text := by
  unfold parameter
  split
  · rfl
  · split <;> simp [Piece.text]

/-- The text of an `integer` is its digits, whether they fit or not. -/
@[simp] theorem text_integer (text : List Char) : (integer text).text = text := by
  unfold integer
  dsimp only
  split <;> rfl

/-- The piece that `number` scans and the rest make up the text. -/
theorem number_append (c : Char) (text : List Char) :
    (number c text).1.text ++ (number c text).2 = c :: text := by
  have split_digits := List.takeWhile_append_dropWhile (p := Char.isDigit) (l := text)
  unfold number
  dsimp only
  split
  · next p d behind rest_eq =>
      split
      · rw [rest_eq] at split_digits
        simpa [Piece.text] using split_digits
      · simp
  · simp

/-- The piece that `quotedName` scans and the rest make up the text. -/
theorem quotedName_append (c : Char) (text : List Char) :
    (quotedName c text).1.text ++ (quotedName c text).2 = c :: text := by
  unfold quotedName
  split
  · next name rest read =>
      simp [Piece.text, (QuotedName.eq_double_of_decode? read).1]
  · simp [Piece.text]

/-- The piece that `string` scans and the rest make up the text. -/
theorem string_append (c : Char) (text : List Char) :
    (string c text).1.text ++ (string c text).2 = c :: text := by
  have whole := QuotedString.body_append c text
  unfold string
  dsimp only
  split
  · next rest_eq => simpa [rest_eq, Piece.text] using whole
  · next d behind rest_eq =>
      split <;> simpa [rest_eq, Piece.text] using whole

/-- The piece that `arrow` scans, the arrow or the mark that starts none, and the rest make up the
text. -/
theorem arrow_append (c second : Char) (both : Token) {alone : Piece} (only : alone.text = [c])
    (text : List Char) :
    (arrow c second both alone text).1.text ++ (arrow c second both alone text).2 = c :: text := by
  unfold arrow
  split
  · simp [only]
  · split
    · simp [Piece.text]
    · simp [only]

/-- The text of a `piece` and the rest make up the text. -/
theorem piece_append (c : Char) (text : List Char) :
    (piece c text).1.text ++ (piece c text).2 = c :: text := by
  unfold piece
  split
  · simp [blank, Piece.text]
  split
  · exact identifier_append c text
  split
  · exact number_append c text
  split
  · exact parameter_append c text
  split
  · exact quotedName_append c text
  split
  · exact string_append c text
  split
  · exact arrow_append c _ _ rfl text
  split
  · exact arrow_append c _ _ rfl text
  split <;> rfl

/-- The text of a `piece` starts with the character at its place. -/
theorem head?_text_piece (c : Char) (text : List Char) :
    (piece c text).1.text.head? = some c := by
  unfold piece
  split
  · rfl
  split
  · rfl
  split
  · unfold number
    dsimp only
    split
    · split
      · rfl
      · simp
    · simp
  split
  · unfold parameter
    split
    · rfl
    · split <;> rfl
  split
  · unfold quotedName
    split <;> rfl
  split
  · unfold string
    dsimp only
    split
    · rfl
    · split <;> rfl
  split
  · unfold arrow
    split
    · rfl
    · split <;> rfl
  split
  · unfold arrow
    split
    · rfl
    · split <;> rfl
  split <;> rfl

/-- No `piece` is empty. -/
theorem text_piece_ne_nil (c : Char) (text : List Char) : (piece c text).1.text ≠ [] := by
  intro empty
  simpa [empty] using head?_text_piece c text

/-- The rest behind a `piece` is shorter than the text, so `pieces` comes to an end. -/
theorem length_piece_rest_lt (c : Char) (text : List Char) :
    (piece c text).2.length < (c :: text).length := by
  have whole := congrArg List.length (piece_append c text)
  have some_text := List.length_pos_iff.mpr (text_piece_ne_nil c text)
  simp only [List.length_append] at whole
  omega

/-! ## All pieces -/

/-- The pieces of a text in order, each the `piece` that starts where the one before it ends. -/
def pieces : List Char → List Piece
  | [] => []
  | c :: text => (piece c text).1 :: pieces (piece c text).2
termination_by text => text.length
decreasing_by exact length_piece_rest_lt c text

/-- The texts of the `pieces` of a text make up the text. -/
theorem flatMap_text_pieces (text : List Char) : (pieces text).flatMap Piece.text = text := by
  fun_induction pieces text with
  | case1 => rfl
  | case2 c text ih => rw [List.flatMap_cons, ih, piece_append]

end Scan

/-- Something found in a source text, with the bytes it is read from. -/
structure Located (α : Type) where
  /-- What was found. -/
  value : α
  /-- Where it was found. -/
  span : Span
  deriving DecidableEq, Repr

/-- Pieces with the bytes they cover, the first one starting at `offset`, each next one at the
`byteLength` of those before. -/
def Piece.locate (offset : Nat) : List Piece → List (Located Piece)
  | [] => []
  | piece :: rest =>
      let stop := offset + byteLength piece.text
      ⟨piece, ⟨offset, stop⟩⟩ :: locate stop rest

/-- The tokens and the faults of a source text. -/
structure Scan where
  /-- The tokens in order. -/
  tokens : List (Located Token)
  /-- The places that hold no token, in order. -/
  faults : List Span
  deriving DecidableEq, Repr

/-- The token that a located piece is, `Piece.token?`, in its place. -/
def Located.token? (piece : Located Piece) : Option (Located Token) :=
  piece.value.token?.map fun token => ⟨token, piece.span⟩

/-- The place of a located piece that is no token, `Piece.isFault`. -/
def Located.fault? (piece : Located Piece) : Option Span :=
  if piece.value.isFault then some piece.span else none

/-- The tokens and faults of a source text, by `Piece.locate` on its `pieces`; scanning goes on
behind a fault. -/
def scan (source : String) : Scan :=
  let located := Piece.locate 0 (Scan.pieces source.toList)
  ⟨located.filterMap Located.token?, located.filterMap Located.fault?⟩

/-- Whether a text consists of tokens and blanks only: there are no `faults`. -/
def Scan.isClean (s : Scan) : Bool :=
  s.faults.isEmpty

end CypherQuery
