import CypherQuery.Build.Condition
import CypherQuery.Proofs.Render.Rescanning
import CypherQuery.Proofs.Token.Locating
import CypherQuery.Traversal.Event

/-! # Quotation cannot be broken out of

Names and strings may hold anything: quotation marks, backslashes, line ends, whole queries. This
module compares what a tree mentions, in the order of writing, with the tokens of its text:
`Mirrors`
does so for pieces and what they mention, `Reflects` for pieces and the events of a tree. The main
statement is `scanning_keeps_quotation`. -/

namespace CypherQuery

/-! ## What a tree mentions -/

/-- A name that a tree mentions. -/
inductive Mention where
  /-- The name of a variable, a label, a type, a key or a new name. -/
  | name (own : String)
  /-- The name of a parameter. -/
  | parameter (own : String)
  deriving DecidableEq, Repr

namespace Mention

/-- The mentioned name. -/
def text : Mention → String
  | .name own | .parameter own => own

/-- Whether the name is written without quotation, as `nameText` and `parameterText` decide. -/
def isBare (config : RenderConfig) : Mention → Bool
  | .name own => !config.alwaysEscapeNames && Name.isPlain own
  | .parameter own => Name.isIdentifier own

end Mention

/-- The names that are written when a part begins, as `Render.enter` writes them. -/
def Part.namesBefore : Part → List Mention
  | .node n => n.name.toList.map .name ++ n.labels.map .name
  | .relationship r => r.name.toList.map .name ++ r.types.map .name
  | .entry e => [.name e.key]
  | .expression (.variable own) => [.name own]
  | .expression (.parameter own) => [.parameter own]
  | _ => []

/-- The names that are written when a part ends, as `Render.leave` writes them. -/
def Part.namesBehind : Part → List Mention
  | .expression (.property _ key) => [.name key]
  | .expression (.aliased _ own) => [.name own]
  | _ => []

namespace Event

/-- The names that an event mentions: `namesBefore` when it enters a part, `namesBehind` when it
leaves it. -/
def names : Event → List Mention
  | .enter part => part.namesBefore
  | .leave part => part.namesBehind

/-- The string literals that an event enters, one at most. -/
def strings : Event → List String
  | .enter (.expression (.literal (.string text))) => [text]
  | _ => []

end Event

/-- The names in a part, `Part.around`, are those written before, inside and behind. -/
theorem Part.names_around (part : Part) (events : List Event) :
    (part.around events).flatMap Event.names
      = part.namesBefore ++ (events.flatMap Event.names ++ part.namesBehind) := by
  rw [Part.around, List.cons_append, List.flatMap_cons, List.flatMap_append,
    List.flatMap_singleton]
  rfl

/-- The string literals in a part, `Part.around`, are the part itself, if it is one, and those
inside. -/
theorem Part.strings_around (part : Part) (events : List Event) :
    (part.around events).flatMap Event.strings
      = (Event.enter part).strings ++ (events.flatMap Event.strings ++ []) := by
  rw [Part.around, List.cons_append, List.flatMap_cons, List.flatMap_append,
    List.flatMap_singleton]
  rfl

/-- The names in a pattern, in the order of writing: those of its `events`. -/
def Pattern.names (p : Pattern) : List Mention :=
  p.events.flatMap Event.names

/-- The names in a statement, in the order of writing: those of its `events`. -/
def Statement.names (s : Statement) : List Mention :=
  s.events.flatMap Event.names

/-- The string literals in a statement, in the order of writing: those of its `events`. -/
def Statement.strings (s : Statement) : List String :=
  s.events.flatMap Event.strings

/-! ## What a text mentions -/

namespace Token

/-- The content of a `string` token. -/
def string? : Token → Option String
  | .string text => some text
  | _ => none

/-- The content of a `quotedName` token. -/
def quotedName? : Token → Option String
  | .quotedName own => some own
  | _ => none

/-- The name that a token spells, quoted or not, of a parameter as well. -/
def spelledName? : Token → Option String
  | .identifier own | .quotedName own | .parameter own => some own
  | _ => none

end Token

/-- The texts that may be faults in the text of a statement: the marks of comparisons, the mark of
a parameter in front of a quoted name, and the digits of the least integer. -/
def harmlessFaults : List (List Char) :=
  [['='], ['<'], ['>'], ['~'], ['$'], digits 9223372036854775808]

/-- Whether a piece mentions no name in quotation and no string, and is one of the `harmlessFaults`
if it is a fault. -/
def Piece.isSilent : Piece → Bool
  | .blank _ => true
  | .token found _ => found.string?.isNone && found.quotedName?.isNone
  | .fault text => harmlessFaults.contains text

/-- Only `harmlessFaults` are among pieces if that is so behind a token or a blank. -/
theorem harmless_cons {part : Piece} {parts : List Piece} (clean : part.isFault = false)
    (harmless : ∀ part ∈ parts, part.isFault = true → part.text ∈ harmlessFaults) :
    ∀ other ∈ part :: parts, other.isFault = true → other.text ∈ harmlessFaults := by
  refine List.forall_mem_cons.mpr ⟨fun fault => ?_, harmless⟩
  rw [clean] at fault
  cases fault

/-- Pieces that mention the given names and strings, in this order: what stands in quotation in the
text is what the tree mentions. -/
structure Mirrors (config : RenderConfig) (parts : List Piece) (names : List Mention)
    (strings : List String) : Prop where
  /-- The strings are the contents of the string tokens. -/
  strings_eq : (tokensOf parts).filterMap Token.string? = strings
  /-- The names that are not written bare are the contents of the quoted names. -/
  quoted_eq : (tokensOf parts).filterMap Token.quotedName?
    = (names.filter (!·.isBare config)).map Mention.text
  /-- All names are spelled by tokens one after the other. -/
  spelled : (names.map Mention.text).Sublist ((tokensOf parts).filterMap Token.spelledName?)
  /-- The faults are harmless. -/
  faults : ∀ part ∈ parts, part.isFault = true → part.text ∈ harmlessFaults

namespace Mirrors

variable {config : RenderConfig} {parts others : List Piece} {names more : List Mention}
  {strings texts : List String}

/-- No pieces mention nothing: `Mirrors` of empty lists. -/
theorem nil : Mirrors config [] [] [] :=
  ⟨rfl, rfl, List.Sublist.refl _, fun _ member => absurd member List.not_mem_nil⟩

/-- What is written one after the other mentions one after the other: `Mirrors` on appends. -/
theorem append (first : Mirrors config parts names strings)
    (second : Mirrors config others more texts) :
    Mirrors config (parts ++ others) (names ++ more) (strings ++ texts) := by
  constructor
  · rw [tokensOf_append, List.filterMap_append, first.strings_eq, second.strings_eq]
  · rw [tokensOf_append, List.filterMap_append, List.filter_append, List.map_append,
      first.quoted_eq, second.quoted_eq]
  · rw [tokensOf_append, List.filterMap_append, List.map_append]
    exact first.spelled.append second.spelled
  · exact List.forall_mem_append.mpr ⟨first.faults, second.faults⟩

/-- A piece in front that `isSilent` changes nothing. -/
theorem cons {part : Piece} (silent : part.isSilent = true)
    (rest : Mirrors config parts names strings) : Mirrors config (part :: parts) names strings := by
  obtain ⟨strings, quoted, spelled, faults⟩ := rest
  -- A token is silent if it is neither a string nor a quoted name; it may still spell a name
  -- that is not mentioned, such as a keyword.
  cases part with
  | blank text => exact ⟨strings, quoted, spelled, harmless_cons rfl faults⟩
  | fault text =>
      have harmless : text ∈ harmlessFaults := List.contains_iff_mem.mp silent
      exact ⟨strings, quoted, spelled, List.forall_mem_cons.mpr ⟨fun _ => harmless, faults⟩⟩
  | token found text =>
      rw [Piece.isSilent, Bool.and_eq_true, Option.isNone_iff_eq_none,
        Option.isNone_iff_eq_none] at silent
      have tokens : tokensOf (.token found text :: parts) = found :: tokensOf parts := rfl
      refine ⟨?_, ?_, ?_, harmless_cons rfl faults⟩
      · rw [tokens, List.filterMap_cons_none silent.1]
        exact strings
      · rw [tokens, List.filterMap_cons_none silent.2]
        exact quoted
      · rw [tokens, List.filterMap_cons]
        cases found.spelledName? with
        | none => exact spelled
        | some own => exact spelled.cons own

/-- Pieces that are silent, `isSilent`, mention nothing. -/
theorem silent (all : ∀ part ∈ parts, part.isSilent = true) : Mirrors config parts [] [] := by
  induction parts with
  | nil => exact nil
  | cons part rest ih =>
      obtain ⟨first, later⟩ := List.forall_mem_cons.mp all
      exact (ih later).cons first

/-- Silent pieces behind others leave `Mirrors` as it is. -/
theorem before (first : Mirrors config parts names strings)
    (all : ∀ part ∈ others, part.isSilent = true) :
    Mirrors config (parts ++ others) names strings := by
  have whole := first.append (silent all)
  rwa [List.append_nil, List.append_nil] at whole

/-- Silent pieces in front of others leave `Mirrors` as it is. -/
theorem behind (all : ∀ part ∈ others, part.isSilent = true)
    (second : Mirrors config parts names strings) :
    Mirrors config (others ++ parts) names strings :=
  (silent all).append second

/-- A token that spells a bare name, `Mention.isBare`, mentions it. -/
theorem bare {mention : Mention} {found : Token} {text : List Char}
    (isBare : mention.isBare config = true) (spells : found.spelledName? = some mention.text)
    (isName : found.string? = none) (unquoted : found.quotedName? = none) :
    Mirrors config [.token found text] [mention] [] := by
  have tokens : tokensOf [.token found text] = [found] := rfl
  have none : [mention].filter (!·.isBare config) = [] :=
    List.filter_cons_of_neg (by rw [isBare]; exact Bool.false_ne_true)
  refine ⟨?_, ?_, ?_, harmless_cons rfl (List.forall_mem_nil _)⟩
  · rw [tokens, List.filterMap_cons_none isName]
    rfl
  · rw [tokens, List.filterMap_cons_none unquoted, none]
    rfl
  · rw [tokens, List.filterMap_cons_some spells]
    exact List.Sublist.refl _

/-- A quoted name, `Scan.quotedPiece`, mentions a name that is not bare. -/
theorem quoted {mention : Mention} (notBare : mention.isBare config = false) :
    Mirrors config [Scan.quotedPiece mention.text] [mention] [] := by
  have one : [mention].filter (!·.isBare config) = [mention] :=
    List.filter_cons_of_pos (by rw [notBare]; rfl)
  refine ⟨rfl, ?_, List.Sublist.refl _, harmless_cons rfl (List.forall_mem_nil _)⟩
  rw [one]
  rfl

end Mirrors

/-! ## Numbers are silent -/

/-- A signed integer of 64 bits is silent; only the digits of the least one are a fault, one of
`harmlessFaults`. -/
theorem isSilent_signedPieces {n : Int} (fits : n.natAbs ≤ 9223372036854775808) :
    ∀ part ∈ signedPieces n, part.isSilent = true := by
  have bound : Int64.maxValue.toNatClampNeg = 9223372036854775807 := by decide
  -- Within 64 bits only the digits of the least integer do not fit a token.
  have number : (Scan.integer (digits n.natAbs)).isSilent = true := by
    by_cases small : n.natAbs ≤ Int64.maxValue.toNatClampNeg
    · rw [integer_digits small]
      rfl
    · have least : n.natAbs = 9223372036854775808 := by omega
      rw [least]
      decide +kernel
  exact forall_mem_signedPieces (by decide) number

/-- An exponent from `-1074` on is silent: its integer fits into 64 bits. -/
theorem isSilent_exponentPieces {n : Int} (low : -1074 ≤ n) :
    ∀ part ∈ Decimal.exponentPieces n, part.isSilent = true := by
  rw [Decimal.exponentPieces]
  by_cases negative : n < 0
  · rw [if_pos negative]
    exact List.forall_mem_cons.mpr ⟨by decide, isSilent_signedPieces (by omega)⟩
  · rw [if_neg negative]
    exact List.forall_mem_singleton.mpr rfl

/-- The text of a number is silent: all of `x.textPieces` are. -/
theorem isSilent_textPieces (x : Binary64) : ∀ part ∈ x.textPieces, part.isSilent = true := by
  have number (found : Token) (text : List Char) (isNumber : found.isNumber = true) :
      (Piece.token found text).isSilent = true := by
    rcases found.integer_or_float isNumber with ⟨n, rfl⟩ | ⟨y, rfl⟩
    · rfl
    · rfl
  -- The exponent is bounded by that of the least positive number, so its digits fit a token.
  have finest : Binary64.precision = 1074 := by unfold Binary64.precision; rfl
  have low := x.le_exponent_shortestFrom
    (Binary64.precision + (digits (x.units / Binary64.unitsInOne)).length)
  rw [finest] at low
  have exponent : -1074 ≤ x.shortest.exponent := by
    rw [Binary64.shortest, finest]
    exact low
  exact x.forall_mem_textPieces (by decide) number (isSilent_exponentPieces (by omega))

/-! ## Names and constants -/

section Words

variable (config : RenderConfig)

open Spelling

/-- The piece of a name, `Spelling.name`, mentions it. -/
theorem mirrors_name (own : String) : Mirrors config [name config own] [.name own] [] := by
  rw [name]
  by_cases bare : (!config.alwaysEscapeNames && Name.isPlain own) = true
  · rw [if_pos bare]
    exact .bare bare rfl rfl rfl
  · rw [if_neg bare]
    have notBare : (Mention.name own).isBare config = false := Bool.eq_false_iff.mpr bare
    exact .quoted notBare

/-- The pieces of a reference to a parameter, `Spelling.parameter`, mention it. -/
theorem mirrors_parameter (own : String) :
    Mirrors config (parameter own) [.parameter own] [] := by
  rw [parameter]
  by_cases bare : Name.isIdentifier own = true
  · rw [if_pos bare]
    exact .bare bare rfl rfl rfl
  · rw [if_neg bare]
    have notBare : (Mention.parameter own).isBare config = false := Bool.eq_false_iff.mpr bare
    exact (Mirrors.quoted notBare).cons (by decide)

/-- Names behind silent marks, `Spelling.marked`, are mentioned one after the other. -/
theorem mirrors_marked {first next : Piece} (firstSilent : first.isSilent = true)
    (nextSilent : next.isSilent = true) (names : List String) :
    Mirrors config (marked config first next names) (names.map .name) [] := by
  induction names generalizing first with
  | nil => exact Mirrors.nil
  | cons own rest ih =>
      exact ((mirrors_name config own).append (ih nextSilent)).cons firstSilent

/-- A name that may be missing is mentioned if it is there: its pieces mirror `own.toList`. -/
theorem mirrors_optionalName (own : Option String) :
    Mirrors config (optional (fun own => [name config own]) own) (own.toList.map .name) [] := by
  cases own with
  | none => exact Mirrors.nil
  | some own => exact mirrors_name config own

/-- The pieces of a literal, `Spelling.literal`, mention its string, if it is one. -/
theorem mirrors_literal (value : Literal) :
    Mirrors config (literal value) [] (Event.enter (.expression (.literal value))).strings := by
  cases value with
  | null => exact .silent (by decide)
  | boolean value => cases value <;> exact .silent (by decide)
  | integer value =>
      have low := value.le_toInt
      have high := value.toInt_lt
      exact .silent (isSilent_signedPieces (by omega))
  | float value => exact .silent (isSilent_textPieces value)
  | string text =>
      exact ⟨rfl, rfl, List.nil_sublist _, harmless_cons rfl (List.forall_mem_nil _)⟩

/-- The pieces of an operator, `Spelling.operator`, mention nothing. -/
theorem isSilent_operator (op : Operator) : ∀ part ∈ operator op, part.isSilent = true := by
  cases op with
  | comparison op => cases op <;> decide
  | logical op => cases op <;> decide
  | unary op => cases op <;> decide

end Words

/-! ## Trees -/

/-- Pieces that mention what the events of a tree mention: `Mirrors` with the `names` and `strings`
of the events. -/
def Reflects (config : RenderConfig) (parts : List Piece) (events : List Event) : Prop :=
  Mirrors config parts (events.flatMap Event.names) (events.flatMap Event.strings)

namespace Reflects

variable {config : RenderConfig} {parts others before behind : List Piece}
  {events more : List Event}

/-- No pieces reflect no events. -/
theorem nil : Reflects config [] [] :=
  Mirrors.nil

/-- What is written one after the other reflects one after the other: `Reflects` on appends. -/
theorem append (first : Reflects config parts events) (second : Reflects config others more) :
    Reflects config (parts ++ others) (events ++ more) := by
  have whole := Mirrors.append first second
  rwa [← List.flatMap_append, ← List.flatMap_append] at whole

/-- Silent pieces in front of others leave `Reflects` as it is. -/
theorem behindSilent (all : ∀ part ∈ others, part.isSilent = true)
    (reflects : Reflects config parts events) : Reflects config (others ++ parts) events :=
  Mirrors.behind all reflects

/-- Silent pieces behind others leave `Reflects` as it is. -/
theorem beforeSilent (reflects : Reflects config parts events)
    (all : ∀ part ∈ others, part.isSilent = true) : Reflects config (parts ++ others) events :=
  Mirrors.before reflects all

/-- A part reflects what it writes before and behind what is inside: the pieces of its head mirror
`namesBefore`, those of its tail `namesBehind`. -/
theorem around (part : Part)
    (first : Mirrors config before part.namesBefore (Event.enter part).strings)
    (inner : Reflects config parts events) (last : Mirrors config behind part.namesBehind []) :
    Reflects config (before ++ (parts ++ behind)) (part.around events) := by
  have whole := first.append (Mirrors.append inner last)
  rw [Reflects, Part.names_around, Part.strings_around]
  exact whole

/-- A part `Reflects` its events if it writes nothing behind what is inside. -/
theorem opened (part : Part)
    (first : Mirrors config before part.namesBefore (Event.enter part).strings)
    (inner : Reflects config parts events) (none : part.namesBehind = []) :
    Reflects config (before ++ parts) (part.around events) := by
  have whole := around part first inner (show Mirrors config [] part.namesBehind [] by
    rw [none]; exact Mirrors.nil)
  rwa [List.append_nil] at whole

/-- A part `Reflects` its events if it writes nothing but what is inside. -/
theorem inside {part : Part} (inner : Reflects config parts events)
    (noneBefore : part.namesBefore = [])
    (noString : (Event.enter part).strings = []) (none : part.namesBehind = []) :
    Reflects config parts (part.around events) :=
  opened part (show Mirrors config [] part.namesBefore (Event.enter part).strings by
    rw [noneBefore, noString]; exact Mirrors.nil) inner none

/-- A part with nothing inside `Reflects` its own names. -/
theorem leaf {part : Part}
    (first : Mirrors config before part.namesBefore (Event.enter part).strings)
    (none : part.namesBehind = []) : Reflects config before (part.around []) := by
  have whole := opened part first nil none
  rwa [List.append_nil] at whole

/-- The items of a list reflect their events with silent separators between them,
`Spelling.separated`. -/
theorem separated {α : Type} {between : List Piece} {spell : α → List Piece}
    {eventsOf : α → List Event} {items : List α}
    (silent : ∀ part ∈ between, part.isSilent = true)
    (each : ∀ item ∈ items, Reflects config (spell item) (eventsOf item)) :
    Reflects config (Spelling.separated between spell items) (items.flatMap eventsOf) := by
  induction items with
  | nil => exact nil
  | cons item rest ih =>
      obtain ⟨first, later⟩ := List.forall_mem_cons.mp each
      rw [List.flatMap_cons]
      cases rest with
      | nil =>
          rw [List.flatMap_nil, List.append_nil]
          exact first
      | cons next rest => exact first.append ((ih later).behindSilent silent)

/-- A part that may be missing, `Spelling.optional`, reflects its events, `eventsOfPart`. -/
theorem optional {α : Type} {spell : α → List Piece} {eventsOf : α → List Event}
    (each : ∀ item, Reflects config (spell item) (eventsOf item)) (item : Option α) :
    Reflects config (Spelling.optional spell item) (eventsOfPart eventsOf item) := by
  cases item with
  | none => exact nil
  | some item => exact each item

end Reflects

section Trees

variable (config : RenderConfig)

open Spelling Scan

/-- An operator reflects its `events`. -/
theorem reflects_operator (op : Operator) : Reflects config (operator op) op.events :=
  .leaf (.silent (isSilent_operator op)) rfl

/-- The pieces of `distinctness`, the word that leaves out equal values, are silent. -/
theorem isSilent_distinctness (distinct : Bool) :
    ∀ part ∈ distinctness distinct, part.isSilent = true := by
  cases distinct <;> decide

mutual

/-- An expression reflects its `events`, by induction on the expression. -/
theorem reflects_expression (e : Expression) : Reflects config (expression config e) e.events := by
  match e with
  | .literal value => exact .leaf (mirrors_literal config value) rfl
  | .parameter own => exact .leaf (mirrors_parameter config own) rfl
  | .variable own => exact .leaf (mirrors_name config own) rfl
  | .asterisk =>
      have star : Mirrors config [mark .star '*'] [] [] := .silent (by decide)
      exact .leaf star rfl
  | .property subject key =>
      have behind : Mirrors config [mark .dot '.', name config key] [.name key] [] :=
        (mirrors_name config key).cons (by decide)
      exact .around (.expression (.property subject key)) .nil (reflects_expression subject) behind
  | .call function distinct arguments =>
      have list : Reflects config (separated comma (expression config) arguments)
          (arguments.flatMap Expression.events) :=
        .separated (by decide) (reflects_each arguments)
      rw [← Expression.eventsAll_eq_flatMap, ← spelling_expressions_eq_separated] at list
      have head : Mirrors config (bareName function :: mark .leftParen '(' :: distinctness distinct)
          [] [] :=
        ((Mirrors.silent (isSilent_distinctness distinct)).cons (by decide)).cons rfl
      have tail : Mirrors config [mark .rightParen ')'] [] [] := .silent (by decide)
      exact .around (.expression (.call function distinct arguments)) head list tail
  | .comparison op left right =>
      exact .inside ((reflects_expression left).append
        ((reflects_operator config _).append (reflects_expression right))) rfl rfl rfl
  | .logical op left right =>
      exact .inside ((reflects_expression left).append
        ((reflects_operator config _).append (reflects_expression right))) rfl rfl rfl
  | .unary op operand =>
      rw [expression, Expression.events]
      by_cases precedes : op.precedesOperand = true
      · rw [if_pos precedes, if_pos precedes]
        have whole := (reflects_operator config (.unary op)).append (reflects_expression operand)
        exact .inside whole rfl rfl rfl
      · rw [if_neg precedes, if_neg precedes]
        have whole := (reflects_expression operand).append (reflects_operator config (.unary op))
        exact .inside whole rfl rfl rfl
  | .nested inner =>
      have head : Mirrors config [mark .leftParen '('] [] [] := .silent (by decide)
      have tail : Mirrors config [mark .rightParen ')'] [] [] := .silent (by decide)
      exact .around (.expression (.nested inner)) head (reflects_expression inner) tail
  | .aliased inner own =>
      have behind : Mirrors config (space :: (phrase ["AS"] ++ [space, name config own]))
          [.name own] [] :=
        (((mirrors_name config own).cons (by decide)).cons (by decide)).cons (by decide)
      exact .around (.expression (.aliased inner own)) .nil (reflects_expression inner) behind

/-- Each of some expressions reflects its `events`. -/
theorem reflects_each (es : List Expression) :
    ∀ e ∈ es, Reflects config (expression config e) e.events := by
  match es with
  | [] => exact fun _ member => absurd member List.not_mem_nil
  | e :: rest => exact List.forall_mem_cons.mpr ⟨reflects_expression e, reflects_each rest⟩

end

/-- An entry reflects the `events` of the part that it is. -/
theorem reflects_entry (e : PropertyEntry) : Reflects config (entry config e) e.events := by
  have key : Mirrors config [name config e.key, mark .colon ':', space] [.name e.key] [] :=
    (mirrors_name config e.key).before (by decide)
  exact .opened (.entry e) key (reflects_expression config e.value) rfl

/-- A property map reflects its `events`. -/
theorem reflects_properties (follows : Bool) (map : PropertyMap) :
    Reflects config (properties config follows map) map.events := by
  have list : Reflects config (separated comma (entry config) map.entries)
      (map.entries.flatMap PropertyEntry.events) :=
    .separated (by decide) fun e _ => reflects_entry config e
  have head : Mirrors config ((if follows then [] else [space]) ++ [mark .leftBrace '\x7b'])
      [] [] := .silent (by cases follows <;> decide)
  have tail : Mirrors config [mark .rightBrace '\x7d'] [] [] := .silent (by decide)
  have whole := Reflects.around (.properties map) head list tail
  rwa [List.append_assoc] at whole

/-- The opening mark, the names and the property map of a node or a relationship reflect the names,
then the events of the map; `part` stands for either. -/
theorem reflects_inside (part : Part) {own : Option String} {names : List String}
    (map : Option PropertyMap) (follows : Bool) {opens first next closes : Piece}
    (before : part.namesBefore = own.toList.map .name ++ names.map .name)
    (noString : (Event.enter part).strings = []) (behind : part.namesBehind = [])
    (silent : ∀ mark ∈ [opens, first, next, closes], mark.isSilent = true) :
    Reflects config
      (opens :: (optional (fun own => [name config own]) own ++
        (marked config first next names ++
          (optional (properties config follows) map ++ [closes]))))
      (part.around (eventsOfPart PropertyMap.events map)) := by
  obtain ⟨opensSilent, rest⟩ := List.forall_mem_cons.mp silent
  obtain ⟨firstSilent, rest⟩ := List.forall_mem_cons.mp rest
  obtain ⟨nextSilent, closesSilent⟩ := List.forall_mem_cons.mp rest
  have head : Mirrors config
      (opens :: (optional (fun own => [name config own]) own ++ marked config first next names))
      part.namesBefore (Event.enter part).strings := by
    rw [before, noString]
    exact ((mirrors_optionalName config own).append
      (mirrors_marked config firstSilent nextSilent names)).cons opensSilent
  have tail : Mirrors config [closes] part.namesBehind [] := by
    rw [behind]
    exact .silent closesSilent
  have whole := Reflects.around part head
    (Reflects.optional (reflects_properties config follows) map) tail
  rwa [List.cons_append, List.append_assoc] at whole

/-- A node reflects its events: `reflects_inside` with parentheses. -/
theorem reflects_node (n : Node) : Reflects config (node config n) n.events :=
  reflects_inside config (.node n) n.properties _ rfl rfl rfl (by decide)

/-- A relationship reflects its events: `reflects_inside` with brackets, between the marks. -/
theorem reflects_relationship (r : Relationship) :
    Reflects config (relationship config r) r.events := by
  have openingSilent : ∀ part ∈ [opening r.direction], part.isSilent = true := by
    cases r.direction <;> decide
  have closingSilent : ∀ part ∈ [closing r.direction], part.isSilent = true := by
    cases r.direction <;> decide
  have inside : Reflects config (if r.isBare then [] else details config r) r.events := by
    by_cases bare : r.isBare = true
    · rw [if_pos bare]
      obtain ⟨noName, noTypes, noMap⟩ := Relationship.isBare_iff.mp bare
      rw [Relationship.events, noMap]
      have nothing : Mirrors config [] (Part.relationship r).namesBefore [] := by
        rw [Part.namesBefore, noName, noTypes]
        exact .nil
      exact .leaf nothing rfl
    · rw [if_neg bare]
      exact reflects_inside config (.relationship r) r.properties _ rfl rfl rfl (by decide)
  exact (inside.beforeSilent closingSilent).behindSilent openingSilent

/-- The steps of a path reflect the `events` of each. -/
theorem reflects_hops (steps : List Hop) :
    Reflects config (hops config steps) (steps.flatMap Hop.events) := by
  induction steps with
  | nil => exact .nil
  | cons hop rest ih =>
      rw [hops, List.flatMap_cons, Hop.events, List.append_assoc]
      exact (reflects_relationship config hop.relationship).append
        ((reflects_node config hop.node).append ih)

/-- An element reflects its `events`. -/
theorem reflects_element (e : PatternElement) : Reflects config (element config e) e.events := by
  cases e with
  | node single => exact .inside (reflects_node config single) rfl rfl rfl
  | chain path =>
      have steps := (reflects_node config path.start).append (reflects_hops config path.hops)
      have inner : Reflects config (element config (.chain path)) path.events :=
        .inside steps rfl rfl rfl
      exact .inside inner rfl rfl rfl

/-- A pattern reflects its `events`. -/
theorem reflects_pattern (p : Pattern) : Reflects config (pattern config p) p.events := by
  have list : Reflects config (separated comma (element config) p.elements)
      (p.elements.flatMap PatternElement.events) :=
    .separated (by decide) fun e _ => reflects_element config e
  exact .inside list rfl rfl rfl

/-- A condition reflects its `conditionEvents`. -/
theorem reflects_condition (e : Expression) :
    Reflects config (condition config e) (conditionEvents e) :=
  .inside ((reflects_expression config e).behindSilent (by decide)) rfl rfl rfl

/-- A reading clause reflects its `events`. -/
theorem reflects_reading (clause : Match) :
    Reflects config (reading config clause) clause.events := by
  have keyword : ∀ part ∈ phrase (if clause.optional then ["OPTIONAL", "MATCH"] else ["MATCH"])
      ++ [space], part.isSilent = true := by
    cases clause.optional <;> decide
  have inner := (reflects_pattern config clause.pattern).append
    (Reflects.optional (reflects_condition config) clause.condition)
  exact .inside (inner.behindSilent keyword) rfl rfl rfl

/-- A projection reflects its `events`. -/
theorem reflects_projection (p : Projection) :
    Reflects config (projection config p) p.events := by
  have list : Reflects config (separated comma (expression config) p.items)
      (p.items.flatMap Expression.events) :=
    .separated (by decide) fun e _ => reflects_expression config e
  exact .inside (list.behindSilent (isSilent_distinctness p.distinct)) rfl rfl rfl

/-- A sort criterion reflects its `events`. -/
theorem reflects_sortItem (item : SortItem) :
    Reflects config (sortItem config item) item.events := by
  have direction : ∀ part ∈ optional (fun direction : SortDirection =>
      space :: phrase [direction.word]) item.direction, part.isSilent = true := by
    cases item.direction with
    | none => exact List.forall_mem_nil _
    | some direction => cases direction <;> decide
  exact .inside ((reflects_expression config item.expression).beforeSilent direction) rfl rfl rfl

/-- An order reflects its `orderEvents`. -/
theorem reflects_order (items : List SortItem) :
    Reflects config (order config items) (orderEvents items) := by
  have list : Reflects config (separated comma (sortItem config) items)
      (items.flatMap SortItem.events) :=
    .separated (by decide) fun item _ => reflects_sortItem config item
  exact .inside (list.behindSilent (by decide)) rfl rfl rfl

/-- A number of rows reflects the `events` of its expression. -/
theorem reflects_count (kind : CountClause) (e : Expression) :
    Reflects config (count config kind e) e.events :=
  (reflects_expression config e).behindSilent (by cases kind <;> decide)

/-- A projecting clause reflects its `events`. -/
theorem reflects_returning (clause : Return) :
    Reflects config (returning config clause) clause.events := by
  have skipped (e : Expression) : Reflects config (count config .skip e) (skipEvents e) :=
    .inside (reflects_count config .skip e) rfl rfl rfl
  have limited (e : Expression) : Reflects config (count config .limit e) (limitEvents e) :=
    .inside (reflects_count config .limit e) rfl rfl rfl
  have inner := (reflects_projection config clause.projection).append
    ((Reflects.optional (reflects_order config) clause.order).append
      ((Reflects.optional skipped clause.skip).append (Reflects.optional limited clause.limit)))
  exact .inside (inner.behindSilent (by decide)) rfl rfl rfl

/-- A clause reflects its `events`. -/
theorem reflects_clause (c : Clause) : Reflects config (clause config c) c.events := by
  cases c with
  | reading c => exact reflects_reading config c
  | returning c => exact reflects_returning config c

/-- A statement reflects its events: the pieces of `Spelling.statement` mention what `s.events`
does. -/
theorem reflects_statement (s : Statement) :
    Reflects config (statement config s) s.events := by
  have list : Reflects config (separated [.blank config.clauseSeparator] (clause config) s.clauses)
      (s.clauses.flatMap Clause.events) :=
    .separated (List.forall_mem_singleton.mpr rfl) fun c _ => reflects_clause config c
  exact .inside list rfl rfl rfl

end Trees

/-! ## The text of a statement -/

/-- The functions that the builders call. -/
def builtFunctions : List String :=
  ["count", "id", "toLower", "collect", "sum", "min", "max", "avg"]

/-- Whether a part, if it is a call, calls one of `builtFunctions`. -/
def Part.callsBuilt : Part → Bool
  | .expression (.call function _ _) => builtFunctions.contains function
  | _ => true

/-- The calls that the operations of `Expression` make are calls of `builtFunctions`. -/
theorem callsBuilt_builders (e : Expression) :
    ∀ call ∈ [Expression.count e, e.countDistinct, e.elementId, e.toLower, e.collectValues, e.sum,
      e.min, e.max, e.avg], (Part.expression call).callsBuilt = true := by
  simp only [List.forall_mem_cons]
  exact ⟨rfl, rfl, rfl, rfl, rfl, rfl, rfl, rfl, rfl, List.forall_mem_nil _⟩

/-- The `builtFunctions` are identifiers, so `HasWordFunction` holds of their calls. -/
theorem Part.hasWordFunction_of_callsBuilt {part : Part} (built : part.callsBuilt = true) :
    part.HasWordFunction := by
  have identifiers : ∀ function ∈ builtFunctions, Name.isIdentifier function = true := by decide
  cases part with
  | expression e =>
      cases e with
      | call function _ _ => exact identifiers function (List.contains_iff_mem.mp built)
      | _ => trivial
  | _ => trivial

/-- However hostile the names and strings of a statement are, its text is scanned into its `strings`
and its quoted `names`, with their contents and in the order of writing. What is no token are
`harmlessFaults`: the marks of comparisons, the mark of a parameter in front of a quoted name and
the digits of the least integer; none of them shares a character with a name or a string. -/
theorem scanning_keeps_quotation (config : RenderConfig) (s : Statement) (text : String)
    (built : ∀ part ∈ s.preorder, part.callsBuilt = true)
    (rendered : Renderer.render ⟨config⟩ s = .ok text) :
    ((scan text).tokens.map Located.value).filterMap Token.string? = s.strings ∧
    ((scan text).tokens.map Located.value).filterMap Token.quotedName?
      = (s.names.filter (!·.isBare config)).map Mention.text ∧
    (s.names.map Mention.text).Sublist
      (((scan text).tokens.map Located.value).filterMap Token.spelledName?) ∧
    ∀ fault ∈ (scan text).faults,
      fault.slice text.toList ∈ harmlessFaults ∧
      ∀ token ∈ (scan text).tokens, token.span.Disjoint fault := by
  obtain ⟨chars, printed, rfl⟩ := Renderer.render_eq_ok.mp rendered
  have words : ∀ part ∈ s.preorder, part.HasWordFunction := fun part member =>
    Part.hasWordFunction_of_callsBuilt (built part member)
  have cut : Scan.pieces (String.ofList chars).toList = Spelling.statement config s := by
    rw [String.toList_ofList]
    exact (spells_statement config s words chars printed).splits.pieces_eq trivial
  have mirrors := reflects_statement config s
  have tokens := tokens_scan (String.ofList chars)
  rw [cut] at tokens
  rw [tokens]
  refine ⟨mirrors.strings_eq, mirrors.quoted_eq, mirrors.spelled, fun fault isFault => ?_⟩
  refine ⟨?_, fun token isToken => disjoint_scan isToken isFault⟩
  -- The text under a fault is the text of one of the pieces of the statement.
  have covered := List.mem_map_of_mem (f := fun span : Span =>
    span.slice (String.ofList chars).toList) isFault
  rw [slices_scan, cut] at covered
  obtain ⟨piece, among, same⟩ := List.mem_map.mp covered
  obtain ⟨member, faulty⟩ := List.mem_filter.mp among
  rw [← same]
  exact mirrors.faults piece member faulty

/-- Names that end their own quotation, strings that end their own line, and everything that the
scanner does not know. -/
def hostileStatement : Statement :=
  ⟨[.reading
      ⟨false,
        ⟨[.chain
          ⟨⟨some "n\x60) DETACH DELETE n //", ["A\x60B", "match"],
              some ⟨[⟨"it's", .literal (.string "\x5c' RETURN 1 //\n\x60")⟩]⟩⟩,
            [⟨⟨none, ["\x60"], none, .outgoing⟩, ⟨some "m", [], none⟩⟩]⟩]⟩,
        some (.comparison .lessOrEqual (.property (.variable "m") "k") (.parameter "a b"))⟩,
    .returning
      ⟨⟨true, [.aliased (.call "count" false [.asterisk]) "'",
          .literal (.integer Int64.minValue)]⟩, none, none, none⟩]⟩

/-- The statement `hostileStatement` is scanned into its strings and its quoted names. -/
theorem scanning_keeps_hostile_quotation :
    (∀ part ∈ hostileStatement.preorder, part.callsBuilt = true) ∧
    ∃ text, Renderer.render ⟨.plain⟩ hostileStatement = .ok text ∧
      ((scan text).tokens.map Located.value).filterMap Token.string?
        = ["\x5c' RETURN 1 //\n\x60"] ∧
      ((scan text).tokens.map Located.value).filterMap Token.quotedName?
        = ["n\x60) DETACH DELETE n //", "A\x60B", "match", "it's", "\x60", "a b", "'"] := by
  have built : ∀ part ∈ hostileStatement.preorder, part.callsBuilt = true := by decide
  obtain ⟨text, rendered⟩ : ∃ text, Renderer.render ⟨.plain⟩ hostileStatement = .ok text :=
    ⟨_, rfl⟩
  obtain ⟨strings, quoted, -, -⟩ :=
    scanning_keeps_quotation .plain hostileStatement text built rendered
  exact ⟨built, text, rendered, strings, quoted⟩

end CypherQuery
