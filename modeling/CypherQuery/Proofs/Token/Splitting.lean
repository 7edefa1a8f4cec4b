import CypherQuery.Token.Scan

/-! # How texts one behind the other are scanned

The longest token wins, so whether a text is cut into the same pieces as alone depends on what
follows it. `Splits follows text parts` says that `text` is cut into `parts` in front of everything
that satisfies `follows`. The module says for each kind of piece what may follow, and how such
statements are put together for longer texts: `Splits.append` in general, `Spells` and `Continues`
for texts that stand between others. -/

namespace CypherQuery.Scan

/-! ## What may follow -/

/-- Anything may follow: the condition of pieces that end by themselves. -/
def Anything (_ : List Char) : Prop :=
  True

/-- What follows does not start with a blank, `isBlank`. -/
def Visible (text : List Char) : Prop :=
  ∀ c ∈ text.head?, isBlank c = false

/-- What follows does not start with the character `mark`. -/
def NotStartedBy (mark : Char) (text : List Char) : Prop :=
  text.head? ≠ some mark

/-- What follows goes on with no number: it starts neither with a digit nor with a point and a
digit. -/
def EndsNumber : List Char → Prop
  | [] => True
  | c :: text => c.isDigit = false ∧ (c = '.' → ∀ d ∈ text.head?, d.isDigit = false)

/-- What follows goes on with nothing that is written for a name or a constant: it is empty, starts
with a separating character (`isSeparator`), or with a point that no digit follows. -/
def Apart : List Char → Prop
  | [] => True
  | c :: text =>
      Name.isPart c = false ∧ c ≠ backQuote ∧ (c = '.' → ∀ d ∈ text.head?, d.isDigit = false)

/-- Whether a character sets a text apart (`Apart`) from the text before it, whatever is behind
it. -/
def isSeparator (c : Char) : Bool :=
  !Name.isPart c && c != backQuote && c != '.'

/-- A text behind a separating character is `Apart`. -/
theorem apart_cons {c : Char} (separates : isSeparator c = true) (text : List Char) :
    Apart (c :: text) := by
  rw [isSeparator, Bool.and_eq_true, Bool.and_eq_true, Bool.not_eq_true', bne_iff_ne,
    bne_iff_ne] at separates
  obtain ⟨⟨noPart, noQuote⟩, noPoint⟩ := separates
  exact ⟨noPart, noQuote, fun point => absurd point noPoint⟩

/-- A point with something other than a digit behind it is `Apart`. -/
theorem apart_point {text : List Char} (word : ∀ d ∈ text.head?, d.isDigit = false) :
    Apart ('.' :: text) :=
  ⟨by decide, by decide, fun _ => word⟩

/-- What is `Apart` starts with no character of a name, `Name.isPart`. -/
theorem Apart.not_isPart {text : List Char} (apart : Apart text) :
    ∀ c ∈ text.head?, Name.isPart c = false := by
  cases text with
  | nil => intro c member; cases member
  | cons c text => intro d member; cases member; exact apart.1

/-- What is `Apart` starts with no `backQuote`. -/
theorem Apart.not_backQuote {text : List Char} (apart : Apart text) :
    NotStartedBy backQuote text := by
  cases text with
  | nil => intro same; cases same
  | cons c text => intro same; cases same; exact apart.2.1 rfl

/-- A digit may stand inside a name, `Name.isPart`. -/
theorem isPart_of_isDigit {c : Char} (digit : c.isDigit = true) : Name.isPart c = true := by
  rw [Name.isPart, Char.isAlphanum, digit, Bool.or_true, Bool.true_or]

/-- What is `Apart` goes on with no number, `EndsNumber`. -/
theorem Apart.endsNumber {text : List Char} (apart : Apart text) : EndsNumber text := by
  cases text with
  | nil => trivial
  | cons c text =>
      -- Only the first character is asked more of: a digit would be part of a name.
      refine ⟨?_, apart.2.2⟩
      cases digit : c.isDigit with
      | false => rfl
      | true =>
          have part := isPart_of_isDigit digit
          rw [apart.1] at part
          cases part

/-- What goes on with no number, `EndsNumber`, starts with no digit. -/
theorem EndsNumber.not_isDigit {text : List Char} (ends : EndsNumber text) :
    ∀ c ∈ text.head?, c.isDigit = false := by
  cases text with
  | nil => intro c member; cases member
  | cons c text => intro d member; cases member; exact ends.1

/-! ## Blanks -/

/-- A blank is one of five characters: `isBlank` as membership in their list. -/
theorem isBlank_iff {c : Char} :
    isBlank c = true ↔ c ∈ [' ', '\t', '\r', '\n', '\x0c'] := by
  simp [isBlank, or_assoc]

/-- A class of characters `p` that holds none of the five blanks is apart from `isBlank`. -/
theorem not_isBlank_of_class {p : Char → Bool}
    (none : ([' ', '\t', '\r', '\n', '\x0c'].all fun blank => !p blank) = true) {c : Char}
    (member : p c = true) : isBlank c = false := by
  rw [← Bool.not_eq_true, isBlank_iff]
  intro blank
  have other := List.all_eq_true.mp none c blank
  rw [member] at other
  cases other

/-! ## Cutting -/

/-- In front of a text that may follow, `text` is cut into `parts`, and scanning goes on with what
follows: `pieces (text ++ rest) = parts ++ pieces rest`. -/
def Splits (follows : List Char → Prop) (text : List Char) (parts : List Piece) : Prop :=
  ∀ rest, follows rest → pieces (text ++ rest) = parts ++ pieces rest

section Composition

variable {F G : List Char → Prop} {text more : List Char} {parts others : List Piece}

/-- The empty text is cut into no pieces. -/
theorem splits_nil (follows : List Char → Prop) : Splits follows [] [] :=
  fun _ _ => rfl

/-- Less may follow: `Splits` is antitone in its condition. -/
theorem Splits.weaken (splits : Splits F text parts) (implied : ∀ rest, G rest → F rest) :
    Splits G text parts :=
  fun rest follows => splits rest (implied rest follows)

/-- Two texts one behind the other are cut into the pieces of the first and those of the second,
`parts ++ others`, provided that the second may follow the first. All longer texts are put together
by this lemma. -/
theorem Splits.append (one : Splits F text parts) (other : Splits G more others)
    (fits : ∀ rest, G rest → F (more ++ rest)) : Splits G (text ++ more) (parts ++ others) := by
  intro rest follows
  -- The first text is cut in front of the second one, and that one in front of the rest.
  rw [List.append_assoc, one _ (fits rest follows), other rest follows, List.append_assoc]

/-- A text that `Anything` may follow is cut off from every text. -/
theorem Splits.before (one : Splits Anything text parts) (other : Splits G more others) :
    Splits G (text ++ more) (parts ++ others) :=
  one.append other fun _ _ => trivial

/-- Alone, a text that `Splits` is cut into the same pieces, if nothing at all may follow. -/
theorem Splits.pieces_eq (splits : Splits F text parts) (allowed : F []) :
    pieces text = parts := by
  have alone := splits [] allowed
  rwa [List.append_nil, pieces, List.append_nil] at alone

end Composition

/-! ## Texts between others -/

/-- The text starts with something visible: it is not empty and its first character is not
`isBlank`. -/
def Solid (text : List Char) : Prop :=
  ∃ c more, text = c :: more ∧ isBlank c = false

/-- The text sets itself apart from what is before it, if what follows it does: `Apart rest` gives
`Apart (text ++ rest)`. -/
def Joins (text : List Char) : Prop :=
  ∀ rest, Apart rest → Apart (text ++ rest)

/-- A `Solid` text is `Visible`, whatever follows. -/
theorem Solid.visible {text : List Char} (solid : Solid text) (rest : List Char) :
    Visible (text ++ rest) := by
  obtain ⟨c, more, rfl, visible⟩ := solid
  intro d member
  cases member
  exact visible

/-- A `Solid` text is `Visible` on its own. -/
theorem Solid.visible_self {text : List Char} (solid : Solid text) : Visible text :=
  List.append_nil text ▸ solid.visible []

/-- A `Solid` text stays so with more behind it. -/
theorem Solid.append {text : List Char} (solid : Solid text) (more : List Char) :
    Solid (text ++ more) := by
  obtain ⟨c, others, rfl, visible⟩ := solid
  exact ⟨c, others ++ more, rfl, visible⟩

/-- A text that starts with a separating character `Joins`. -/
theorem joins_cons {c : Char} (separates : isSeparator c = true) (text : List Char) :
    Joins (c :: text) :=
  fun rest _ => apart_cons separates (text ++ rest)

/-- A text that is cut into certain pieces in front of everything `Apart`, and starts visibly. -/
structure Spells (text : List Char) (parts : List Piece) : Prop where
  /-- The text starts visibly. -/
  solid : Solid text
  /-- The text is cut into the pieces. -/
  splits : Splits Apart text parts

/-- A text that is cut into certain pieces in front of everything `Apart`, and can stand behind
everything that asks for something apart. -/
structure Continues (text : List Char) (parts : List Piece) : Prop where
  /-- The text sets itself apart. -/
  joins : Joins text
  /-- The text is cut into the pieces. -/
  splits : Splits Apart text parts

section Composition

variable {text more : List Char} {parts others : List Piece}

/-- A text that `Continues` may follow one that `Splits` in front of what is apart. -/
theorem Splits.join (one : Splits Apart text parts) (other : Continues more others) :
    Splits Apart (text ++ more) (parts ++ others) :=
  one.append other.splits other.joins

/-- A text that `Continues` may follow one that `Spells`. -/
theorem Spells.join (one : Spells text parts) (other : Continues more others) :
    Spells (text ++ more) (parts ++ others) :=
  ⟨one.solid.append more, one.splits.join other⟩

/-- A text that `Continues` may follow another one. -/
theorem Continues.join (one : Continues text parts) (other : Continues more others) :
    Continues (text ++ more) (parts ++ others) := by
  refine ⟨fun rest apart => ?_, one.splits.join other⟩
  rw [List.append_assoc]
  exact one.joins _ (other.joins rest apart)

/-- The empty text continues every text. -/
theorem continues_nil : Continues [] [] :=
  ⟨fun _ apart => apart, splits_nil Apart⟩

/-- A text that `Spells`, so starts visibly, may follow a run of blanks. -/
theorem Splits.spell (one : Splits Visible text parts) (other : Spells more others) :
    Splits Apart (text ++ more) (parts ++ others) :=
  one.append other.splits fun rest _ => other.solid.visible rest

end Composition

/-! ## Single pieces -/

/-- A text that `piece` reads as one piece in front of what may follow. -/
theorem splits_piece {F : List Char → Prop} {c : Char} {text : List Char} {found : Piece}
    (read : ∀ rest, F rest → piece c (text ++ rest) = (found, rest)) :
    Splits F (c :: text) [found] := by
  intro rest follows
  rw [List.cons_append, pieces, read rest follows]
  rfl

/-- A character that `piece` takes on its own, whatever follows. -/
theorem splits_mark {c : Char} {found : Piece} (alone : ∀ text, piece c text = (found, text)) :
    Splits Anything [c] [found] :=
  splits_piece fun rest _ => alone rest

/-- Behind a separating character that is a piece on its own, a text `Continues` what is before. -/
theorem Splits.continue {c : Char} {found : Piece} {text : List Char} {parts : List Piece}
    (splits : Splits Apart text parts) (separates : isSeparator c = true)
    (alone : ∀ text, piece c text = (found, text)) : Continues (c :: text) (found :: parts) :=
  ⟨joins_cons separates text, (splits_mark alone).before splits⟩

/-- A run of elements of one kind ends where an element of another kind follows: what `takeWhile`
takes and `dropWhile` leaves. -/
theorem takeWhile_append_rest {α : Type} {p : α → Bool} (text rest : List α)
    (all : ∀ c ∈ text, p c = true) (stop : ∀ c ∈ rest.head?, p c = false) :
    (text ++ rest).takeWhile p = text ∧ (text ++ rest).dropWhile p = rest := by
  rw [List.takeWhile_append_of_pos all, List.dropWhile_append_of_pos all]
  -- The run goes through the whole text; it is the rest that has to end it.
  cases rest with
  | nil => exact ⟨List.append_nil text, rfl⟩
  | cons c rest =>
      have other : p c = false := stop c rfl
      rw [List.takeWhile_cons_of_neg (by rw [other]; exact Bool.false_ne_true),
        List.dropWhile_cons_of_neg (by rw [other]; exact Bool.false_ne_true)]
      exact ⟨List.append_nil text, rfl⟩

/-- A run of blanks in front of something `Visible` is a piece. -/
theorem splits_blanks {c : Char} {text : List Char}
    (blanks : ∀ d ∈ c :: text, isBlank d = true) :
    Splits Visible (c :: text) [.blank (c :: text)] := by
  obtain ⟨first, others⟩ := List.forall_mem_cons.mp blanks
  refine splits_piece fun rest visible => ?_
  obtain ⟨taken, dropped⟩ := takeWhile_append_rest text rest others visible
  rw [piece, if_pos first, Scan.blank, taken, dropped]

/-- One blank in front of something `Visible` is a piece. -/
theorem splits_blank {c : Char} (blank : isBlank c = true) : Splits Visible [c] [.blank [c]] :=
  splits_blanks (List.forall_mem_singleton.mpr blank)

/-! ## Names -/

/-- The start of an identifier, `Name.isStart`, is no blank. -/
theorem not_isBlank_of_isStart {c : Char} (start : Name.isStart c = true) : isBlank c = false :=
  not_isBlank_of_class (by decide) start

/-- An identifier is a letter or an underscore and more characters of names, by `Name.isStart` and
`Name.isPart`. -/
theorem toList_of_isIdentifier {name : String} (identifier : Name.isIdentifier name = true) :
    ∃ c text, name.toList = c :: text ∧ Name.isStart c = true ∧
      ∀ d ∈ text, Name.isPart d = true := by
  rw [Name.isIdentifier] at identifier
  split at identifier
  · cases identifier
  · next c text same =>
      rw [Bool.and_eq_true, List.all_eq_true] at identifier
      exact ⟨c, text, same, identifier.1, identifier.2⟩

/-- The token `identifier` of a name without quotation. -/
def bareName (name : String) : Piece :=
  .token (.identifier name) name.toList

/-- An identifier is one token, `bareName`, in front of what is `Apart`. -/
theorem splits_bareName {name : String} (identifier : Name.isIdentifier name = true) :
    Splits Apart name.toList [bareName name] := by
  obtain ⟨c, text, same, start, all⟩ := toList_of_isIdentifier identifier
  have whole : String.ofList (c :: text) = name := by rw [← same]; exact String.ofList_toList
  rw [bareName, same]
  refine splits_piece fun rest apart => ?_
  obtain ⟨taken, dropped⟩ := takeWhile_append_rest text rest all apart.not_isPart
  rw [piece, not_isBlank_of_isStart start, if_neg Bool.false_ne_true, if_pos start,
    Scan.identifier, taken, dropped, whole]

/-- The token `quotedName` of a name between back-quotes, `Name.quoted`. -/
def quotedPiece (name : String) : Piece :=
  .token (.quotedName name) (Name.quoted name)

/-- A quoted name is one token, `quotedPiece`, unless another back-quote follows. -/
theorem splits_quotedName (name : String) :
    Splits (NotStartedBy backQuote) (Name.quoted name) [quotedPiece name] := by
  refine splits_piece fun rest stop => ?_
  -- A back-quote behind the closing one would be read as a doubled one.
  have read := QuotedName.decode?_double name.toList rest stop
  show quotedName backQuote (QuotedName.double name.toList ++ [backQuote] ++ rest) = _
  rw [quotedName, List.append_assoc, List.singleton_append, read]
  show (Piece.token (.quotedName (String.ofList name.toList)) _, rest) = _
  rw [String.ofList_toList]
  rfl

/-- The token `parameter` of a name that is an identifier, behind `$`. -/
def parameterPiece (name : String) : Piece :=
  .token (.parameter name) ('$' :: name.toList)

/-- A reference to a parameter is one token, `parameterPiece`, in front of what is `Apart`. -/
theorem splits_parameter {name : String} (identifier : Name.isIdentifier name = true) :
    Splits Apart ('$' :: name.toList) [parameterPiece name] := by
  obtain ⟨c, text, same, start, all⟩ := toList_of_isIdentifier identifier
  have whole : String.ofList (c :: text) = name := by rw [← same]; exact String.ofList_toList
  rw [parameterPiece, same]
  refine splits_piece fun rest apart => ?_
  obtain ⟨taken, dropped⟩ := takeWhile_append_rest text rest all apart.not_isPart
  show parameter '$' (c :: (text ++ rest)) = _
  rw [parameter]
  simp only [start, if_true, taken, dropped, whole]

/-- Behind the mark of parameters, a quoted name makes no parameter: the mark `$` is a fault. -/
theorem splits_quotedParameter (name : String) :
    Splits (NotStartedBy backQuote) ('$' :: Name.quoted name) [.fault ['$'], quotedPiece name] := by
  intro rest stop
  rw [List.cons_append, pieces, List.cons_append, List.singleton_append]
  exact congrArg _ (splits_quotedName name rest stop)

/-! ## Strings -/

/-- The token `string` of a text, written by `QuotedString.encode`. -/
def stringPiece (text : String) : Piece :=
  .token (.string text) (QuotedString.encode text.toList)

/-- A string as `QuotedString.encode` writes it is one token, whatever follows. -/
theorem splits_string (text : String) :
    Splits Anything (QuotedString.encode text.toList) [stringPiece text] := by
  refine splits_piece fun rest _ => ?_
  show string singleQuote (QuotedString.escape text.toList ++ [singleQuote] ++ rest) = _
  rw [string, List.append_assoc, List.singleton_append, QuotedString.body_escape]
  show (if singleQuote = singleQuote then _ else _) = _
  rw [if_pos rfl, QuotedString.unescape_escape, String.ofList_toList]
  rfl

/-! ## Lines and arrows -/

/-- A line is the token `dash` unless it becomes an arrow. -/
theorem splits_dash : Splits (NotStartedBy '>') ['-'] [.token .dash ['-']] := by
  refine splits_piece fun rest stop => ?_
  cases rest with
  | nil => rfl
  | cons d rest =>
      have other : d ≠ '>' := fun same => stop (congrArg some same)
      show arrow '-' '>' .rightArrow (.token .dash ['-']) (d :: rest) = _
      rw [arrow, if_neg other]

/-- The mark of smaller values is a fault unless it becomes the arrow `leftArrow`. -/
theorem splits_less : Splits (NotStartedBy '-') ['<'] [.fault ['<']] := by
  refine splits_piece fun rest stop => ?_
  cases rest with
  | nil => rfl
  | cons d rest =>
      have other : d ≠ '-' := fun same => stop (congrArg some same)
      show arrow '<' '-' .leftArrow (.fault ['<']) (d :: rest) = _
      rw [arrow, if_neg other]

/-- The arrow `->` is one token. -/
theorem splits_rightArrow : Splits Anything ['-', '>'] [.token .rightArrow ['-', '>']] :=
  splits_piece fun _ _ => rfl

/-- The arrow `<-` is one token. -/
theorem splits_leftArrow : Splits Anything ['<', '-'] [.token .leftArrow ['<', '-']] :=
  splits_piece fun _ _ => rfl

/-! ## Numbers -/

/-- A digit is no blank, by `not_isBlank_of_class`. -/
theorem not_isBlank_of_isDigit {c : Char} (digit : c.isDigit = true) : isBlank c = false :=
  not_isBlank_of_class (by decide) digit

/-- A digit is no `Name.isStart`: letters and the underscore are behind the digits. -/
theorem not_isStart_of_isDigit {c : Char} (digit : c.isDigit = true) : Name.isStart c = false := by
  obtain ⟨low, high⟩ := Char.isDigit_iff_toNat.mp digit
  cases start : Name.isStart c with
  | false => rfl
  | true =>
      have start : (decide (65 ≤ c.val ∧ c.val ≤ 90) ||
          (decide (97 ≤ c.val) && decide (c.val ≤ 122)) || c == '_') = true := start
      simp only [Bool.or_eq_true, Bool.and_eq_true, decide_eq_true_eq, beq_iff_eq,
        UInt32.le_iff_toNat_le] at start
      -- Letters and the underscore are all behind the digits.
      have behind : 65 ≤ c.toNat := by
        rcases start with (⟨letter, -⟩ | ⟨letter, -⟩) | rfl
        · exact letter
        · exact Nat.le_trans (by decide) letter
        · decide
      exact absurd (Nat.le_trans behind high) (by decide)

/-- A digit starts a `number`. -/
theorem piece_of_isDigit {c : Char} (digit : c.isDigit = true) (text : List Char) :
    piece c text = number c text := by
  rw [piece, not_isBlank_of_isDigit digit, not_isStart_of_isDigit digit,
    if_neg Bool.false_ne_true, if_neg Bool.false_ne_true, if_pos digit]

/-- Digits are an `integer` in front of what goes on with no number, `EndsNumber`. -/
theorem splits_integer {text : List Char} (nonempty : text ≠ [])
    (all : ∀ c ∈ text, c.isDigit = true) : Splits EndsNumber text [integer text] := by
  obtain ⟨c, others, rfl⟩ := List.exists_cons_of_ne_nil nonempty
  obtain ⟨digit, rest⟩ := List.forall_mem_cons.mp all
  refine splits_piece fun behind ends => ?_
  obtain ⟨taken, dropped⟩ := takeWhile_append_rest others behind rest ends.not_isDigit
  rw [piece_of_isDigit digit, number, taken, dropped]
  match behind, ends with
  | [], _ => rfl
  | [_], _ => rfl
  | p :: d :: tail, ends =>
      -- A point with a digit behind it would go on with the number.
      have noFraction : ¬(p = '.' ∧ d.isDigit = true) := by
        rintro ⟨point, isDigit⟩
        rw [ends.2 point d rfl] at isDigit
        cases isDigit
      exact if_neg noFraction

/-- The token `float` of digits on both sides of a point: `ofDecimal` of all of them. -/
def floatPiece (whole fraction : List Char) : Piece :=
  .token (.float (.ofDecimal (ofDigits (whole ++ fraction)) (-(fraction.length : Int))))
    (whole ++ '.' :: fraction)

/-- Digits on both sides of a point are one number, `floatPiece`, in front of what goes on with no
number. -/
theorem splits_float (whole fraction : List Char) (wholeNonempty : whole ≠ [])
    (fractionNonempty : fraction ≠ []) (wholeAll : ∀ c ∈ whole, c.isDigit = true)
    (fractionAll : ∀ c ∈ fraction, c.isDigit = true) :
    Splits EndsNumber (whole ++ '.' :: fraction) [floatPiece whole fraction] := by
  obtain ⟨c, others, rfl⟩ := List.exists_cons_of_ne_nil wholeNonempty
  obtain ⟨d, behind, rfl⟩ := List.exists_cons_of_ne_nil fractionNonempty
  obtain ⟨digit, othersAll⟩ := List.forall_mem_cons.mp wholeAll
  obtain ⟨first, behindAll⟩ := List.forall_mem_cons.mp fractionAll
  refine splits_piece fun rest ends => ?_
  obtain ⟨taken, dropped⟩ := takeWhile_append_rest others ('.' :: d :: (behind ++ rest))
    othersAll (fun point same => by cases same; decide)
  obtain ⟨takenBehind, droppedBehind⟩ :=
    takeWhile_append_rest behind rest behindAll ends.not_isDigit
  rw [piece_of_isDigit digit]
  show number c ((others ++ '.' :: d :: behind) ++ rest) = _
  rw [List.append_assoc, List.cons_append, List.cons_append, number, taken, dropped]
  show (if '.' = '.' ∧ d.isDigit = true then _ else _) = _
  rw [if_pos ⟨rfl, first⟩, takenBehind, droppedBehind]
  rfl

end CypherQuery.Scan
