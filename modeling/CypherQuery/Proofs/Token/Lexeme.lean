import CypherQuery.Proofs.Token.Splitting

/-! # The texts of tokens

Which texts stand for a token, `Token.Lexeme`, said without the scanner. Every token that is scanned
has such a text (`isSound_pieces`). The main statement is that such a text is cut off whole wherever
a blank or the end follows (`splits_lexeme`), so that a token is determined by its own text. -/

namespace CypherQuery

open Scan

/-! ## Inside strings -/

namespace QuotedString

/-- What can stand between the marks of a string: characters other than the mark and the
`backslash`, and backslashes with any character behind them that ends no line. -/
inductive Body (quote : Char) : List Char → Prop where
  /-- Nothing. -/
  | nil : Body quote []
  /-- A character that stands for itself. -/
  | plain {c : Char} {text : List Char} (inside : c ≠ quote) (alone : c ≠ backslash)
      (rest : Body quote text) : Body quote (c :: text)
  /-- A backslash and the character that it takes with it. -/
  | escaped {c : Char} {text : List Char} (visible : c ≠ '\n') (rest : Body quote text) :
      Body quote (backslash :: c :: text)

/-- What `body` reads as the inside of a string can stand between its marks, `Body`. -/
theorem isBody_body (quote : Char) (text : List Char) : Body quote (body quote text).1 := by
  fun_induction body quote text with
  | case1 => exact .nil
  | case2 => exact .nil
  | case3 => exact .nil
  | case4 => exact .nil
  | case5 _ _ visible _ _ read _ ih =>
      rw [read] at ih
      exact .escaped visible ih
  | case6 _ _ inside alone _ _ read ih =>
      rw [read] at ih
      exact .plain inside alone ih

/-- What can stand between the marks of a string, `Body`, is read whole by `body` in front of the
closing one. -/
theorem Body.body_append {quote : Char} {inside : List Char} (isBody : Body quote inside)
    (mark : quote ≠ backslash) (rest : List Char) :
    body quote (inside ++ quote :: rest) = (inside, quote :: rest) := by
  induction isBody with
  | nil => exact body_quote quote rest
  | plain inside alone _ ih => rw [List.cons_append, body_cons inside alone, ih]
  | escaped visible _ ih => simp [body, mark.symm, visible, ih]

end QuotedString

/-! ## Tokens and their texts -/

/-- A text stands for a token. -/
inductive Token.Lexeme : Token → List Char → Prop where
  /-- A mark. -/
  | mark {c : Char} {token : Token} (known : mark? c = some token) : Lexeme token [c]
  /-- A line. -/
  | dash : Lexeme .dash ['-']
  /-- An arrow to the right. -/
  | rightArrow : Lexeme .rightArrow ['-', '>']
  /-- An arrow to the left. -/
  | leftArrow : Lexeme .leftArrow ['<', '-']
  /-- A name without quotation. -/
  | identifier {name : String} (proper : Name.isIdentifier name = true) :
      Lexeme (.identifier name) name.toList
  /-- A reference to a parameter. -/
  | parameter {name : String} (proper : Name.isIdentifier name = true) :
      Lexeme (.parameter name) ('$' :: name.toList)
  /-- A name between back-quotes. -/
  | quotedName (name : String) : Lexeme (.quotedName name) (Name.quoted name)
  /-- A string between two marks of either kind. -/
  | string {quote : Char} {inside : List Char} (mark : quote = singleQuote ∨ quote = doubleQuote)
      (isBody : QuotedString.Body quote inside) :
      Lexeme (.string (String.ofList (QuotedString.unescape inside))) (quote :: inside ++ [quote])
  /-- Digits, of a value that fits. -/
  | integer {digits : List Char} (nonempty : digits ≠ []) (all : ∀ c ∈ digits, c.isDigit = true)
      (fits : ofDigits digits ≤ Int64.maxValue.toNatClampNeg) :
      Lexeme (.integer (Int64.ofNat (ofDigits digits))) digits
  /-- Digits on both sides of a point. -/
  | float {whole fraction : List Char} (wholeNonempty : whole ≠ [])
      (fractionNonempty : fraction ≠ []) (wholeAll : ∀ c ∈ whole, c.isDigit = true)
      (fractionAll : ∀ c ∈ fraction, c.isDigit = true) :
      Lexeme (.float (.ofDecimal (ofDigits (whole ++ fraction)) (-(fraction.length : Int))))
        (whole ++ '.' :: fraction)

/-- A text of blanks: `isBlank` holds of all its characters. -/
def IsBlanks (text : List Char) : Prop :=
  ∀ c ∈ text, isBlank c = true

/-- Whether a text consists of blanks can be computed. -/
instance (text : List Char) : Decidable (IsBlanks text) :=
  decidable_of_iff (text.all isBlank = true) List.all_eq_true

/-- A piece is what its kind says: blanks, or a token with a text that stands for it,
`Token.Lexeme`. If a fault consists of digits, then they are too large for an integer. -/
def Piece.IsSound : Piece → Prop
  | .blank text => IsBlanks text
  | .token found text => found.Lexeme text
  | .fault text => (∀ c ∈ text, c.isDigit = true) → Int64.maxValue.toNatClampNeg < ofDigits text

namespace Scan

/-- A fault that starts with something else than a digit is sound, `Piece.IsSound`. -/
theorem isSound_fault {c : Char} (other : ¬c.isDigit = true) (text : List Char) :
    (Piece.fault (c :: text)).IsSound :=
  fun all => absurd (all c List.mem_cons_self) other

/-- Digits are an integer or too large for one: what `integer` makes of them is sound. -/
theorem isSound_integer {digits : List Char} (nonempty : digits ≠ [])
    (all : ∀ c ∈ digits, c.isDigit = true) : (integer digits).IsSound := by
  unfold integer
  dsimp only
  split
  · next fits => exact .integer nonempty all fits
  · next large => exact fun _ => Nat.lt_of_not_le large

/-- A character and the run of its kind behind it, by `takeWhile`, are of that kind. -/
theorem forall_mem_cons_takeWhile {p : Char → Bool} {c : Char} (first : p c = true)
    (text : List Char) : ∀ d ∈ c :: text.takeWhile p, p d = true :=
  List.forall_mem_cons.mpr ⟨first, List.all_eq_true.mp List.all_takeWhile⟩

/-- What `number` reads is sound. -/
theorem isSound_number {c : Char} (digit : c.isDigit = true) (text : List Char) :
    (number c text).1.IsSound := by
  have whole := forall_mem_cons_takeWhile digit text
  unfold number
  dsimp only
  split
  · next p d behind rest =>
      split
      · next point =>
          obtain ⟨rfl, first⟩ := point
          exact .float (List.cons_ne_nil _ _) (List.cons_ne_nil _ _) whole
            (forall_mem_cons_takeWhile first behind)
      · exact isSound_integer (List.cons_ne_nil _ _) whole
  · exact isSound_integer (List.cons_ne_nil _ _) whole

/-- A start of a name and the parts behind it are an identifier, `Name.isIdentifier`. -/
theorem isIdentifier_cons_takeWhile {c : Char} (start : Name.isStart c = true)
    (text : List Char) :
    Name.isIdentifier (String.ofList (c :: text.takeWhile Name.isPart)) = true := by
  rw [Name.isIdentifier, String.toList_ofList]
  simp [start]

/-- What `identifier` reads is sound. -/
theorem isSound_identifier {c : Char} (start : Name.isStart c = true) (text : List Char) :
    (identifier c text).1.IsSound := by
  have lexeme := Token.Lexeme.identifier (isIdentifier_cons_takeWhile start text)
  rw [String.toList_ofList] at lexeme
  exact lexeme

/-- What `parameter` reads is sound. -/
theorem isSound_parameter (text : List Char) : (parameter '$' text).1.IsSound := by
  have other : ¬ '$'.isDigit = true := by decide
  unfold parameter
  split
  · exact isSound_fault other []
  · next d rest =>
      split
      · next start =>
          have lexeme := Token.Lexeme.parameter (isIdentifier_cons_takeWhile start rest)
          rw [String.toList_ofList] at lexeme
          exact lexeme
      · exact isSound_fault other []

/-- What `quotedName` reads is sound. -/
theorem isSound_quotedName (text : List Char) : (quotedName backQuote text).1.IsSound := by
  unfold quotedName
  split
  · next name rest read =>
      have lexeme := Token.Lexeme.quotedName (String.ofList name)
      rw [Name.quoted, String.toList_ofList] at lexeme
      exact lexeme
  · exact isSound_fault (by decide) text

/-- What `string` reads is sound. -/
theorem isSound_string {c : Char} (mark : c = singleQuote ∨ c = doubleQuote) (text : List Char) :
    (string c text).1.IsSound := by
  have other : ¬c.isDigit = true := by rcases mark with rfl | rfl <;> decide
  have isBody := QuotedString.isBody_body c text
  unfold string
  dsimp only
  split
  · exact isSound_fault other _
  · next d behind rest =>
      split
      · next same =>
          subst same
          exact .string mark isBody
      · exact isSound_fault other _

/-- What `arrow` reads is sound if both of its marks are a `Lexeme` and the first one alone is
sound. -/
theorem isSound_arrow {c second : Char} {both : Token} {alone : Piece}
    (arrow : both.Lexeme [c, second]) (only : alone.IsSound) (text : List Char) :
    (Scan.arrow c second both alone text).1.IsSound := by
  unfold Scan.arrow
  split
  · exact only
  · split
    · next same => exact same ▸ arrow
    · exact only

/-- Every piece that `piece` reads is sound: one case for each kind of character. -/
theorem isSound_piece (c : Char) (text : List Char) : (piece c text).1.IsSound := by
  unfold piece
  -- The cases follow the tests on the first character.
  split
  · next blank => exact forall_mem_cons_takeWhile blank text
  split
  · next start => exact isSound_identifier start text
  split
  · next digit => exact isSound_number digit text
  next other =>
  split
  · next same => subst same; exact isSound_parameter text
  split
  · next same => subst same; exact isSound_quotedName text
  split
  · next mark => exact isSound_string mark text
  split
  · next same =>
      subst same
      have line : (Piece.token .dash ['-']).IsSound := Token.Lexeme.dash
      exact isSound_arrow .rightArrow line text
  split
  · next same => subst same; exact isSound_arrow .leftArrow (isSound_fault other []) text
  split
  · next token known => exact .mark known
  · exact isSound_fault other []

/-- All `pieces` of a text are sound. -/
theorem isSound_pieces (text : List Char) : ∀ part ∈ pieces text, part.IsSound := by
  fun_induction pieces text with
  | case1 => exact List.forall_mem_nil _
  | case2 c text ih => exact List.forall_mem_cons.mpr ⟨isSound_piece c text, ih⟩

/-! ## In front of blanks -/

/-- Nothing follows, or a blank. -/
def Parted (text : List Char) : Prop :=
  ∀ c ∈ text.head?, isBlank c = true

/-- What is `Parted` starts with no visible character. -/
theorem Parted.notStartedBy {text : List Char} (parted : Parted text) {mark : Char}
    (visible : isBlank mark = false) : NotStartedBy mark text := by
  intro starts
  rw [parted mark starts] at visible
  cases visible

/-- What is `Parted` is `Apart`. -/
theorem Parted.apart {text : List Char} (parted : Parted text) : Apart text := by
  cases text with
  | nil => trivial
  | cons c text =>
      have separates : [' ', '\t', '\r', '\n', '\x0c'].all isSeparator = true := by decide
      have blank := isBlank_iff.mp (parted c rfl)
      exact apart_cons (List.all_eq_true.mp separates c blank) text

/-- What holds of a token under a condition, and of the others in any case, holds of what is found
under the condition or among the others: one step through `mark?`. -/
theorem forall_mem_ite {P : Token → Prop} {asked : Prop} [Decidable asked] {token : Token}
    {others : Option Token} (own : asked → P token) (rest : ∀ other ∈ others, P other) :
    ∀ found ∈ (if asked then some token else others), P found := by
  by_cases holds : asked
  · rw [if_pos holds]
    rintro found ⟨⟩
    exact own holds
  · rw [if_neg holds]
    exact rest

/-- A mark, as `mark?` knows it, is a token on its own. -/
theorem piece_mark {c : Char} {token : Token} (known : mark? c = some token) (text : List Char) :
    piece c text = (.token token [c], text) := by
  have each : ∀ found ∈ mark? c, piece c text = (.token found [c], text) := by
    unfold mark?
    iterate 11 refine forall_mem_ite (by rintro rfl; rfl) ?_
    intro found none
    cases none
  exact each token known

/-- A string between two marks of either kind, `quote :: inside ++ [quote]`, is one token, whatever
follows. -/
theorem splits_lexeme_string {quote : Char} {inside : List Char}
    (mark : quote = singleQuote ∨ quote = doubleQuote) (isBody : QuotedString.Body quote inside) :
    Splits Anything (quote :: inside ++ [quote])
      [.token (.string (String.ofList (QuotedString.unescape inside)))
        (quote :: inside ++ [quote])] := by
  refine splits_piece fun rest _ => ?_
  have starts (text : List Char) : piece quote text = string quote text := by
    rcases mark with rfl | rfl <;> rfl
  have proper : quote ≠ backslash := by rcases mark with rfl | rfl <;> decide
  show piece quote (inside ++ [quote] ++ rest) = _
  rw [starts, List.append_assoc, List.singleton_append, string, isBody.body_append proper]
  simp

/-- A text that stands for a token, `Token.Lexeme`, is cut off whole in front of what is
`Parted`. -/
theorem splits_lexeme {token : Token} {text : List Char} (lexeme : token.Lexeme text) :
    Splits Parted text [.token token text] := by
  cases lexeme with
  | mark known => exact (splits_mark (piece_mark known)).weaken fun _ _ => trivial
  | dash => exact splits_dash.weaken fun _ parted => parted.notStartedBy (by decide)
  | rightArrow => exact splits_rightArrow.weaken fun _ _ => trivial
  | leftArrow => exact splits_leftArrow.weaken fun _ _ => trivial
  | identifier proper => exact (splits_bareName proper).weaken fun _ parted => parted.apart
  | parameter proper => exact (splits_parameter proper).weaken fun _ parted => parted.apart
  | quotedName name =>
      exact (splits_quotedName name).weaken fun _ parted => parted.notStartedBy (by decide)
  | string mark isBody => exact (splits_lexeme_string mark isBody).weaken fun _ _ => trivial
  | integer nonempty all fits =>
      have whole := splits_integer nonempty all
      rw [integer, if_pos fits] at whole
      exact whole.weaken fun _ parted => parted.apart.endsNumber
  | float wholeNonempty fractionNonempty wholeAll fractionAll =>
      exact (splits_float _ _ wholeNonempty fractionNonempty wholeAll fractionAll).weaken
        fun _ parted => parted.apart.endsNumber

/-- Alone, a text that stands for a token is that token: it has no other `pieces`. -/
theorem pieces_lexeme {token : Token} {text : List Char} (lexeme : token.Lexeme text) :
    pieces text = [.token token text] :=
  (splits_lexeme lexeme).pieces_eq (by intro c none; cases none)

/-- A text that stands for a token is `Solid`. -/
theorem solid_lexeme {token : Token} {text : List Char} (lexeme : token.Lexeme text) :
    Solid text := by
  have alone := pieces_lexeme lexeme
  cases text with
  | nil => rw [pieces] at alone; cases alone
  | cons c more =>
      refine ⟨c, more, rfl, ?_⟩
      cases blank : isBlank c with
      | false => rfl
      | true =>
          -- A text that starts with a blank would be cut into a run of blanks first.
          rw [pieces, piece, if_pos blank] at alone
          cases (List.cons.inj alone).1

end Scan

end CypherQuery
