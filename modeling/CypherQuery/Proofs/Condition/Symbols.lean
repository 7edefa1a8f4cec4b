import CypherQuery.Proofs.Number.Distinctness
import CypherQuery.Proofs.Render.Rescanning

/-! # The symbols of an expression

A written expression is a sequence of constants, names, marks and operators, its
`Expression.symbols`. The scanner knows nothing of them, but its pieces show where each `Symbol`
ends: a constant goes on up to a blank or a mark, and every other symbol can be read off its first
pieces (`read?_pieces`). The main statement, `symbols_eq_of_spelling`, is that expressions with the
same pieces have the same symbols. -/

namespace CypherQuery

open Scan

/-- A symbol of a written expression. -/
inductive Symbol where
  /-- A constant. -/
  | literal (value : Literal)
  /-- A reference to a parameter. -/
  | parameter (name : String)
  /-- A reference to a variable. -/
  | variable (name : String)
  /-- The star. -/
  | asterisk
  /-- A function with the parenthesis behind it. -/
  | function (name : String)
  /-- The word that leaves out equal values. -/
  | distinct
  /-- An opening parenthesis that belongs to no function. -/
  | opening
  /-- A closing parenthesis. -/
  | closing
  /-- A point and a key. -/
  | key (name : String)
  /-- An operator. -/
  | operator (op : Operator)
  /-- A comma between arguments. -/
  | comma
  /-- A new name. -/
  | newName (name : String)
  deriving DecidableEq, Repr

namespace Expression

mutual

/-- The symbols of an expression in the order of writing: its own, between or beside those of its
operands. -/
def symbols : Expression → List Symbol
  | .literal value => [.literal value]
  | .parameter name => [.parameter name]
  | .variable name => [.variable name]
  | .asterisk => [.asterisk]
  | .property subject name => subject.symbols ++ [.key name]
  | .call function distinct arguments =>
      .function function ::
        ((if distinct then [.distinct] else []) ++ (symbolsAll arguments ++ [.closing]))
  | .comparison op left right => left.symbols ++ .operator (.comparison op) :: right.symbols
  | .logical op left right => left.symbols ++ .operator (.logical op) :: right.symbols
  | .unary op operand =>
      if op.precedesOperand then .operator (.unary op) :: operand.symbols
      else operand.symbols ++ [.operator (.unary op)]
  | .nested inner => .opening :: (inner.symbols ++ [.closing])
  | .aliased inner name => inner.symbols ++ [.newName name]

/-- The symbols of arguments with a `comma` between them. -/
def symbolsAll : List Expression → List Symbol
  | [] => []
  | [e] => e.symbols
  | e :: next :: rest => e.symbols ++ .comma :: symbolsAll (next :: rest)

end

end Expression

namespace Symbol

/-- The pieces of a symbol, those that `Spelling` gives for it. -/
def pieces (config : RenderConfig) : Symbol → List Piece
  | .literal value => Spelling.literal value
  | .parameter name => Spelling.parameter name
  | .variable name => [Spelling.name config name]
  | .asterisk => [Spelling.mark .star '*']
  | .function name => [bareName name, Spelling.mark .leftParen '(']
  | .distinct => Spelling.phrase ["DISTINCT"] ++ [Spelling.space]
  | .opening => [Spelling.mark .leftParen '(']
  | .closing => [Spelling.mark .rightParen ')']
  | .key name => [Spelling.mark .dot '.', Spelling.name config name]
  | .operator op => Spelling.operator op
  | .comma => Spelling.comma
  | .newName name =>
      Spelling.space :: (Spelling.phrase ["AS"] ++ [Spelling.space, Spelling.name config name])

/-- Whether a symbol has its own content only: a constant has a text, and a function is a plain
name, `Name.isPlain`. -/
def Proper : Symbol → Prop
  | .literal value => ∃ text, literalText value = .ok text
  | .function name => Name.isPlain name = true
  | _ => True

/-- Whether it depends on what follows where a symbol ends, or what it is: a `literal` or a
`variable`. -/
def isOpen : Symbol → Bool
  | .literal _ | .variable _ => true
  | _ => false

/-- Whether a symbol stands behind an operand, and so continues an expression. -/
def continues : Symbol → Bool
  | .closing | .key _ | .operator (.comparison _) | .operator (.logical _)
  | .operator (.unary .isNull) | .operator (.unary .isNotNull) | .comma | .newName _ => true
  | _ => false

end Symbol

/-! ## Symbols and pieces -/

namespace Expression

variable (config : RenderConfig)

mutual

/-- The pieces of an expression, `Spelling.expression`, are those of its `symbols`. -/
theorem spelling_eq_symbols (e : Expression) :
    Spelling.expression config e = e.symbols.flatMap (Symbol.pieces config) := by
  rcases e with value | name | name | ⟨subject, key⟩ | ⟨function, distinct, arguments⟩ | _ |
    ⟨op, left, right⟩ | ⟨op, left, right⟩ | ⟨op, operand⟩ | inner | ⟨inner, name⟩
  case property =>
    rw [Spelling.expression, spelling_eq_symbols subject]
    simp [symbols, Symbol.pieces]
  case call =>
    rw [Spelling.expression, spelling_eq_symbolsAll arguments]
    rcases distinct with _ | _
    · simp [symbols, Symbol.pieces, Spelling.distinctness]
    · simp [symbols, Symbol.pieces, Spelling.distinctness]
  case comparison =>
    rw [Spelling.expression, spelling_eq_symbols left, spelling_eq_symbols right]
    simp [symbols, Symbol.pieces]
  case logical =>
    rw [Spelling.expression, spelling_eq_symbols left, spelling_eq_symbols right]
    simp [symbols, Symbol.pieces]
  case unary =>
    rw [Spelling.expression, spelling_eq_symbols operand, symbols]
    by_cases precedes : op.precedesOperand = true
    · simp [precedes, Symbol.pieces]
    · simp [precedes, Symbol.pieces]
  case nested =>
    rw [Spelling.expression, spelling_eq_symbols inner]
    simp [symbols, Symbol.pieces]
  case aliased =>
    rw [Spelling.expression, spelling_eq_symbols inner]
    simp [symbols, Symbol.pieces]
  all_goals simp [Spelling.expression, symbols, Symbol.pieces]

/-- The pieces of arguments are those of their symbols, `symbolsAll`. -/
theorem spelling_eq_symbolsAll (es : List Expression) :
    Spelling.expressions config es = (symbolsAll es).flatMap (Symbol.pieces config) := by
  rcases es with _ | ⟨e, _ | ⟨next, rest⟩⟩
  · rfl
  · exact spelling_eq_symbols e
  · rw [Spelling.expressions, symbolsAll, spelling_eq_symbols e,
      spelling_eq_symbolsAll (next :: rest)]
    simp [Symbol.pieces]

end

end Expression

/-! ## Where a symbol ends -/

/-- Whether a piece ends a constant or a name before it: a blank, `rightParen`, `dot` or `comma`. -/
def Piece.stops : Piece → Bool
  | .blank _ | .token .rightParen _ | .token .dot _ | .token .comma _ => true
  | _ => false

/-- What follows is nothing, or something that ends a constant or a name, `Piece.stops`. -/
def Stops (rest : List Piece) : Prop :=
  ∀ part ∈ rest.head?, part.stops = true

/-- A symbol behind an operand, one that `continues`, ends the operand. -/
theorem Symbol.stops_of_continues (config : RenderConfig) {symbol : Symbol}
    (continues : symbol.continues = true) (rest : List Piece) :
    Stops (symbol.pieces config ++ rest) := by
  rcases symbol with _ | _ | _ | _ | _ | _ | _ | _ | _ | (_ | _ | (_ | _ | _)) | _ | _
  all_goals
    first
      | (intro part head; cases head; rfl)
      | cases continues

/-- Digits end nothing, whether they fit a token or not: `Piece.stops` fails for `integer`. -/
theorem stops_integer (text : List Char) : (integer text).stops = false := by
  unfold integer
  dsimp only
  split
  · rfl
  · rfl

/-- A signed integer ends nothing: none of its `signedPieces` is one that `stops`. -/
theorem stops_signedPieces (n : Int) : ∀ part ∈ signedPieces n, part.stops = false :=
  forall_mem_signedPieces rfl (stops_integer (digits n.natAbs))

/-- A floating-point number ends nothing: none of its `textPieces` is one that `stops`. -/
theorem stops_textPieces (x : Binary64) : ∀ part ∈ x.textPieces, part.stops = false := by
  have number (found : Token) (text : List Char) (isNumber : found.isNumber = true) :
      (Piece.token found text).stops = false := by
    rcases found.integer_or_float isNumber with ⟨n, rfl⟩ | ⟨y, rfl⟩
    · rfl
    · rfl
  have exponent (n : Int) : ∀ part ∈ Decimal.exponentPieces n, part.stops = false := by
    rw [Decimal.exponentPieces]
    split
    · exact List.forall_mem_cons.mpr ⟨rfl, stops_signedPieces n⟩
    · exact List.forall_mem_singleton.mpr rfl
  exact x.forall_mem_textPieces rfl number (exponent _)

/-- A constant ends nothing: `Piece.stops` fails for all its pieces. -/
theorem stops_literal (value : Literal) : ∀ part ∈ Spelling.literal value, part.stops = false := by
  rcases value with _ | (_ | _) | n | x | content
  case integer => exact stops_signedPieces n.toInt
  case float => exact stops_textPieces x
  all_goals exact List.forall_mem_singleton.mpr rfl

/-- Constants in front of what ends them, `Stops`, are the same if the pieces are. -/
theorem literal_eq_of_pieces {value other : Literal} {text otherText : List Char}
    (written : literalText value = .ok text) (otherWritten : literalText other = .ok otherText)
    {rest otherRest : List Piece} (stops : Stops rest) (otherStops : Stops otherRest)
    (same : Spelling.literal value ++ rest = Spelling.literal other ++ otherRest) :
    value = other := by
  have run {own : Literal} {behind : List Piece} (ends : Stops behind) :
      (Spelling.literal own ++ behind).takeWhile (!·.stops) = Spelling.literal own := by
    refine (takeWhile_append_rest _ _ (fun part member => ?_) fun part head => ?_).1
    · rw [stops_literal own part member]
      rfl
    · rw [ends part head]
      rfl
  -- Up to where it ends, each constant is what it is spelled as, and that has its text.
  have pieces : Spelling.literal value = Spelling.literal other := by
    rw [← run stops, same, run otherStops]
  have own := (spells_literal written).splits.pieces_eq trivial
  rw [pieces, ← (spells_literal otherWritten).splits.pieces_eq trivial] at own
  have texts : text = otherText := by
    rw [← flatMap_text_pieces text, own, flatMap_text_pieces]
  exact Literal.text_injective written (texts ▸ otherWritten)

/-! ## Reading symbols off pieces -/

namespace Symbol

/-- The operator that a word behind a blank starts, or the new name behind it, given what follows
the `word`. -/
def readSpacedWord? (word : String) (rest : List Piece) : Option Symbol :=
  match word, rest with
  | "STARTS", _ => some (.operator (.comparison .startsWith))
  | "ENDS", _ => some (.operator (.comparison .endsWith))
  | "CONTAINS", _ => some (.operator (.comparison .contains))
  | "AND", _ => some (.operator (.logical .and))
  | "OR", _ => some (.operator (.logical .or))
  | "XOR", _ => some (.operator (.logical .xor))
  | "IS", _ :: .token (.identifier "NULL") _ :: _ => some (.operator (.unary .isNull))
  | "IS", _ => some (.operator (.unary .isNotNull))
  | "AS", _ :: .token name _ :: _ => name.name?.map .newName
  | _, _ => none

/-- The symbol that starts behind a blank. -/
def readSpaced? : List Piece → Option Symbol
  | .fault ['='] :: .fault ['~'] :: _ => some (.operator (.comparison .matchesRegex))
  | .fault ['='] :: _ => some (.operator (.comparison .equal))
  | .fault ['<'] :: .fault ['>'] :: _ => some (.operator (.comparison .notEqual))
  | .fault ['<'] :: .fault ['='] :: _ => some (.operator (.comparison .lessOrEqual))
  | .fault ['<'] :: _ => some (.operator (.comparison .less))
  | .fault ['>'] :: .fault ['='] :: _ => some (.operator (.comparison .greaterOrEqual))
  | .fault ['>'] :: _ => some (.operator (.comparison .greater))
  | .token (.identifier word) _ :: rest => readSpacedWord? word rest
  | _ => none

/-- The symbol that a word is where no function is called. -/
def readWord? (word : String) : Option Symbol :=
  if word = "NOT" then some (.operator (.unary .not))
  else if word = "DISTINCT" then some .distinct
  else if Name.isReserved word then none
  else some (.variable word)

/-- Whether a parenthesis opens directly: the first piece is `leftParen`. -/
def opens : List Piece → Bool
  | .token .leftParen _ :: _ => true
  | _ => false

/-- The symbol that the pieces start with, unless that is a constant; it is read off the first few
of them. -/
def read? : List Piece → Option Symbol
  | .token .leftParen _ :: _ => some .opening
  | .token .rightParen _ :: _ => some .closing
  | .token .comma _ :: _ => some .comma
  | .token .star _ :: _ => some .asterisk
  | .token .dot _ :: .token name _ :: _ => name.name?.map .key
  | .token (.parameter name) _ :: _ => some (.parameter name)
  | .fault ['$'] :: .token (.quotedName name) _ :: _ => some (.parameter name)
  | .token (.quotedName name) _ :: _ => some (.variable name)
  | .token (.identifier name) _ :: rest =>
      if opens rest then some (.function name) else readWord? name
  | .blank _ :: rest => readSpaced? rest
  | _ => none

/-- Where an operand ends, `Stops`, no parenthesis `opens`. -/
theorem opens_of_stops {rest : List Piece} (stops : Stops rest) : opens rest = false := by
  unfold opens
  split
  · exact absurd (stops _ rfl) Bool.false_ne_true
  · rfl

/-- A plain name, `Name.isPlain`, is the symbol of a `variable`. -/
theorem readWord?_of_isPlain {name : String} (plain : Name.isPlain name = true) :
    readWord? name = some (.variable name) := by
  rw [Name.isPlain, Bool.and_eq_true, Bool.not_eq_true'] at plain
  obtain ⟨-, free⟩ := plain
  have other (word : String) (reserved : Name.isReserved word = true) : name ≠ word := by
    rintro rfl
    rw [reserved] at free
    cases free
  rw [readWord?, if_neg (other "NOT" (by decide)), if_neg (other "DISTINCT" (by decide)), free]
  rfl

/-- A constant is no other symbol: `read?` finds none in its pieces. -/
theorem read?_literal {value : Literal} {rest : List Piece} (stops : Stops rest) :
    read? (Spelling.literal value ++ rest) = none := by
  have word {name : String} (reserved : readWord? name = none) :
      read? ([bareName name] ++ rest) = none := by
    show (if opens rest then _ else _) = _
    rw [opens_of_stops stops, if_neg Bool.false_ne_true, reserved]
  rcases value with _ | (_ | _) | n | x | content
  case null => exact word (by decide)
  case boolean.false => exact word (by decide)
  case boolean.true => exact word (by decide)
  case integer =>
    have high := n.toInt_lt
    have bound : Int64.maxValue.toNatClampNeg = 9223372036854775807 := by decide
    rw [Spelling.literal, signedPieces]
    by_cases negative : n.toInt < 0
    · rw [if_pos negative]
      rfl
    · rw [if_neg negative, integer_digits (by omega)]
      rfl
  case float =>
    obtain ⟨found, text, same, number⟩ := x.shortest.mantissaPiece_eq
    rw [Spelling.literal, Binary64.textPieces]
    rcases x.negative with _ | _
    · by_cases positional : x.isPositional = true
      · rw [if_pos positional]
        rfl
      · rw [if_neg positional, Decimal.scientificPieces, same]
        rcases found.integer_or_float number with ⟨n, rfl⟩ | ⟨y, rfl⟩
        · rfl
        · rfl
    · rfl
  case string => rfl

/-- Any other symbol is read by `read?` off the pieces that start with it, if what follows ends it
where it is open. -/
theorem read?_pieces (config : RenderConfig) {symbol : Symbol} (proper : symbol.Proper)
    {rest : List Piece} (ends : symbol.isOpen = true → Stops rest)
    (other : ∀ value, symbol ≠ .literal value) :
    read? (symbol.pieces config ++ rest) = some symbol := by
  have name (own : String) :
      ∃ token text, Spelling.name config own = .token token text ∧ token.name? = some own := by
    rw [Spelling.name]
    split
    · exact ⟨_, _, rfl, rfl⟩
    · exact ⟨_, _, rfl, rfl⟩
  rcases symbol with value | own | own | _ | own | _ | _ | _ | own | (op | op | op) | _ | own
  case literal => exact absurd rfl (other value)
  case parameter =>
    rw [pieces, Spelling.parameter]
    split
    · rfl
    · rfl
  case «variable» =>
    rw [pieces, Spelling.name]
    split
    · next bare =>
        rw [Bool.and_eq_true] at bare
        show (if opens rest then _ else _) = _
        rw [opens_of_stops (ends rfl), if_neg Bool.false_ne_true, readWord?_of_isPlain bare.2]
    · rfl
  case key =>
    obtain ⟨token, text, same, named⟩ := name own
    rw [pieces, same]
    show token.name?.map Symbol.key = _
    rw [named]
    rfl
  case newName =>
    obtain ⟨token, text, same, named⟩ := name own
    rw [pieces, same]
    show token.name?.map Symbol.newName = _
    rw [named]
    rfl
  case operator.comparison => cases op <;> rfl
  case operator.logical => cases op <;> rfl
  case operator.unary => cases op <;> rfl
  all_goals rfl

/-- Symbols that are followed as they ask for, `Stops`, are the same if the pieces are. -/
theorem eq_of_pieces (config : RenderConfig) {symbol other : Symbol} (proper : symbol.Proper)
    (otherProper : other.Proper) {rest otherRest : List Piece}
    (ends : symbol.isOpen = true → Stops rest) (otherEnds : other.isOpen = true → Stops otherRest)
    (same : symbol.pieces config ++ rest = other.pieces config ++ otherRest) : symbol = other := by
  by_cases constant : ∃ value, symbol = .literal value
  · obtain ⟨value, rfl⟩ := constant
    by_cases otherConstant : ∃ value, other = .literal value
    · obtain ⟨own, rfl⟩ := otherConstant
      obtain ⟨text, written⟩ := proper
      obtain ⟨otherText, otherWritten⟩ := otherProper
      rw [literal_eq_of_pieces written otherWritten (ends rfl) (otherEnds rfl) same]
    · have read := read?_pieces config otherProper otherEnds (not_exists.mp otherConstant)
      rw [← same, pieces, read?_literal (ends rfl)] at read
      cases read
  · have read := read?_pieces config proper ends (not_exists.mp constant)
    by_cases otherConstant : ∃ value, other = .literal value
    · obtain ⟨own, rfl⟩ := otherConstant
      rw [same, pieces, read?_literal (otherEnds rfl)] at read
      cases read
    · rw [same, read?_pieces config otherProper otherEnds (not_exists.mp otherConstant)] at read
      exact (Option.some.inj read).symm

end Symbol

/-! ## Sequences of symbols -/

/-- What follows is nothing, or a symbol that `continues` behind an operand. -/
def Follows (rest : List Symbol) : Prop :=
  ∀ symbol ∈ rest.head?, symbol.continues = true

/-- Constants and variables are operands, and what follows them stands behind an operand,
`Follows`. -/
def Flows : List Symbol → Prop
  | [] => True
  | symbol :: rest => (symbol.isOpen = true → Follows rest) ∧ Flows rest

/-- What stands behind an operand, `Follows`, ends it: its pieces are what `Stops`. -/
theorem Follows.stops (config : RenderConfig) {rest : List Symbol} (follows : Follows rest) :
    Stops (rest.flatMap (Symbol.pieces config)) := by
  rcases rest with _ | ⟨symbol, rest⟩
  · intro part head
    cases head
  · exact symbol.stops_of_continues config (follows symbol rfl) _

/-- A symbol that is `Proper` has pieces. -/
theorem Symbol.pieces_ne_nil (config : RenderConfig) {symbol : Symbol} (proper : symbol.Proper) :
    symbol.pieces config ≠ [] := by
  intro none
  by_cases constant : ∃ value, symbol = .literal value
  · obtain ⟨value, rfl⟩ := constant
    obtain ⟨text, written⟩ := proper
    obtain ⟨c, more, rfl, -⟩ := Literal.text_head written
    have own := (spells_literal written).splits.pieces_eq trivial
    have whole := flatMap_text_pieces (c :: more)
    rw [own, show Spelling.literal value = [] from none] at whole
    cases whole
  · -- Any other symbol is read off its pieces, and a blank alone is none.
    have stops : Stops [.blank []] := fun part head => by cases head; rfl
    have read := read?_pieces config proper (fun _ => stops) (not_exists.mp constant)
    rw [none] at read
    cases read

/-- Sequences of symbols with the same pieces are the same, symbol by symbol: `Flows` lets each one
be read. -/
theorem symbols_eq_of_pieces (config : RenderConfig) {first other : List Symbol}
    (flows : Flows first) (otherFlows : Flows other)
    (proper : ∀ symbol ∈ first, symbol.Proper) (otherProper : ∀ symbol ∈ other, symbol.Proper)
    (same : first.flatMap (Symbol.pieces config) = other.flatMap (Symbol.pieces config)) :
    first = other := by
  induction first generalizing other with
  | nil =>
      rcases other with _ | ⟨symbol, rest⟩
      · rfl
      · rw [List.flatMap_cons] at same
        exact absurd (List.append_eq_nil_iff.mp same.symm).1
          (symbol.pieces_ne_nil config (otherProper symbol List.mem_cons_self))
  | cons symbol rest ih =>
      obtain ⟨own, others⟩ := List.forall_mem_cons.mp proper
      rcases other with _ | ⟨next, otherRest⟩
      · rw [List.flatMap_cons] at same
        exact absurd (List.append_eq_nil_iff.mp same).1 (symbol.pieces_ne_nil config own)
      · obtain ⟨otherOwn, otherOthers⟩ := List.forall_mem_cons.mp otherProper
        rw [List.flatMap_cons, List.flatMap_cons] at same
        obtain rfl := Symbol.eq_of_pieces config own otherOwn
          (fun isOpen => (flows.1 isOpen).stops config)
          (fun isOpen => (otherFlows.1 isOpen).stops config) same
        rw [ih flows.2 otherFlows.2 others otherOthers (List.append_cancel_left same)]

/-- A symbol that `continues` may follow. -/
theorem follows_cons {symbol : Symbol} (continues : symbol.continues = true)
    (rest : List Symbol) : Follows (symbol :: rest) := by
  intro other head
  cases head
  exact continues

/-- A symbol that is not `isOpen` may be in front of everything. -/
theorem flows_cons {symbol : Symbol} (plain : symbol.isOpen = false) {rest : List Symbol}
    (flows : Flows rest) : Flows (symbol :: rest) :=
  ⟨fun isOpen => absurd (plain.symm.trans isOpen) Bool.false_ne_true, flows⟩

namespace Expression

mutual

/-- The `symbols` of an expression flow into what stands behind an operand. -/
theorem flows_symbols (e : Expression) {rest : List Symbol} (follows : Follows rest)
    (flows : Flows rest) : Flows (e.symbols ++ rest) := by
  rcases e with value | name | name | ⟨subject, key⟩ | ⟨function, distinct, arguments⟩ | _ |
    ⟨op, left, right⟩ | ⟨op, left, right⟩ | ⟨op, operand⟩ | inner | ⟨inner, name⟩
  case literal => exact ⟨fun _ => follows, flows⟩
  case «variable» => exact ⟨fun _ => follows, flows⟩
  case parameter => exact flows_cons rfl flows
  case asterisk => exact flows_cons rfl flows
  case property =>
    rw [symbols, List.append_assoc]
    exact flows_symbols subject (follows_cons rfl _) (flows_cons rfl flows)
  case call =>
    have closing : Flows (.closing :: rest) := flows_cons rfl flows
    have closed := flows_symbolsAll arguments (follows_cons rfl _) closing
    rw [symbols, List.cons_append, List.append_assoc, List.append_assoc]
    refine flows_cons rfl ?_
    rcases distinct with _ | _
    · exact closed
    · exact flows_cons rfl closed
  case comparison =>
    rw [symbols, List.append_assoc]
    exact flows_symbols left (follows_cons rfl _)
      (flows_cons rfl (flows_symbols right follows flows))
  case logical =>
    rw [symbols, List.append_assoc]
    exact flows_symbols left (follows_cons rfl _)
      (flows_cons rfl (flows_symbols right follows flows))
  case unary =>
    rw [symbols]
    cases op with
    | not => exact flows_cons rfl (flows_symbols operand follows flows)
    | isNull | isNotNull =>
        rw [if_neg (by decide), List.append_assoc]
        exact flows_symbols operand (follows_cons rfl _) (flows_cons rfl flows)
  case nested =>
    rw [symbols, List.cons_append, List.append_assoc]
    exact flows_cons rfl (flows_symbols inner (follows_cons rfl _) (flows_cons rfl flows))
  case aliased =>
    rw [symbols, List.append_assoc]
    exact flows_symbols inner (follows_cons rfl _) (flows_cons rfl flows)

/-- The symbols of arguments, `symbolsAll`, flow into what `Follows` an operand. -/
theorem flows_symbolsAll (es : List Expression) {rest : List Symbol} (follows : Follows rest)
    (flows : Flows rest) : Flows (symbolsAll es ++ rest) := by
  rcases es with _ | ⟨e, _ | ⟨next, others⟩⟩
  · exact flows
  · exact flows_symbols e follows flows
  · rw [symbolsAll, List.append_assoc]
    exact flows_symbols e (follows_cons rfl _)
      (flows_cons rfl (flows_symbolsAll (next :: others) follows flows))

end

/-- Expressions with the same pieces have the same `symbols`, if their constants have texts and
their functions are plain names. -/
theorem symbols_eq_of_spelling (config : RenderConfig) {e other : Expression}
    (proper : ∀ symbol ∈ e.symbols, symbol.Proper)
    (otherProper : ∀ symbol ∈ other.symbols, symbol.Proper)
    (same : Spelling.expression config e = Spelling.expression config other) :
    e.symbols = other.symbols := by
  have flows (own : Expression) : Flows own.symbols := by
    have nothing : Follows [] := fun _ head => nomatch head
    have whole := own.flows_symbols nothing trivial
    rwa [List.append_nil] at whole
  rw [spelling_eq_symbols, spelling_eq_symbols] at same
  exact symbols_eq_of_pieces config (flows e) (flows other) proper otherProper same

end Expression

end CypherQuery
