import CypherQuery.Proofs.Attempt
import CypherQuery.Proofs.Render.Spelling
import CypherQuery.Proofs.Render.Visitor

/-! # Scanning what was printed

The text of a tree is cut into exactly the pieces of the tree, whatever names and strings hold: the
text that `Print` writes is one that `Spells` the pieces that `Spelling` gives, from
`spells_expression` to `spells_statement`. The proof follows the structure of the tree; at each
place where two texts meet, the second one either `Continues` the first or is visible behind a
blank. Calls are written with the function as it is, so the functions have to be identifiers
(`Part.HasWordFunction`). -/

namespace CypherQuery

open Scan Spelling

/-- If a part is a call, its function is an identifier, `Name.isIdentifier`. -/
def Part.HasWordFunction : Part → Prop
  | .expression (.call function _ _) => Name.isIdentifier function = true
  | _ => True

/-! ## Words -/

/-- A name that is not empty has a `nameText`. -/
theorem exists_nameText (config : RenderConfig) (context : NameContext) {own : String}
    (named : own ≠ "") : ∃ text, nameText config context own = .ok text := by
  rw [nameText, if_neg fun empty => named (String.isEmpty_iff.mp empty)]
  split
  · exact ⟨_, rfl⟩
  · exact ⟨_, rfl⟩

/-- A reference to a parameter has a `parameterText` if its name is not empty. -/
theorem exists_parameterText {own : String} (named : own ≠ "") :
    ∃ text, parameterText own = .ok text := by
  rw [parameterText, if_neg fun empty => named (String.isEmpty_iff.mp empty)]
  split
  · exact ⟨_, rfl⟩
  · exact ⟨_, rfl⟩

/-- A constant has a `literalText` unless it is a number that is not finite. -/
theorem exists_literalText {value : Literal}
    (finite : ∀ x, value = .float x → x.isFinite = true) :
    ∃ text, literalText value = .ok text := by
  rcases value with _ | (_ | _) | n | x | content
  case float => exact ⟨_, if_pos (finite x rfl)⟩
  all_goals exact ⟨_, rfl⟩

section Words

variable {config : RenderConfig} {context : NameContext} {own : String} {text : List Char}

/-- The text of a name, `nameText`, is its piece. -/
theorem spells_name (written : nameText config context own = .ok text) :
    Spells text [name config own] := by
  rw [nameText] at written
  rw [name]
  split at written
  · cases written
  -- A plain name is an identifier; any other name stands between back-quotes.
  · split at written
    · next plain =>
        cases written
        rw [if_pos plain]
        rw [Bool.and_eq_true, Name.isPlain, Bool.and_eq_true] at plain
        obtain ⟨c, more, same, start, -⟩ := toList_of_isIdentifier plain.2.1
        exact ⟨⟨c, more, same, not_isBlank_of_isStart start⟩, splits_bareName plain.2.1⟩
    · next quote =>
        cases written
        rw [if_neg quote]
        exact ⟨⟨backQuote, _, rfl, by decide⟩,
          (splits_quotedName own).weaken fun _ apart => apart.not_backQuote⟩

/-- The text of a name, `nameText`, starts with no digit. -/
theorem not_isDigit_of_nameText (written : nameText config context own = .ok text)
    (rest : List Char) : ∀ d ∈ (text ++ rest).head?, d.isDigit = false := by
  rw [nameText] at written
  split at written
  · cases written
  · split at written
    · next plain =>
        cases written
        rw [Bool.and_eq_true, Name.isPlain, Bool.and_eq_true] at plain
        obtain ⟨c, more, same, start, -⟩ := toList_of_isIdentifier plain.2.1
        rw [same]
        intro d member
        cases member
        cases digit : c.isDigit with
        | false => rfl
        | true =>
            rw [not_isStart_of_isDigit digit] at start
            cases start
    · cases written
      intro d member
      cases member
      decide

/-- The text of a reference to a parameter, `parameterText`, is its pieces. -/
theorem spells_parameter (written : parameterText own = .ok text) :
    Spells text (Spelling.parameter own) := by
  rw [parameterText] at written
  rw [Spelling.parameter]
  split at written
  · cases written
  · split at written
    · next identifier =>
        cases written
        rw [if_pos identifier]
        exact ⟨⟨'$', _, rfl, by decide⟩, splits_parameter identifier⟩
    · next quote =>
        cases written
        rw [if_neg quote]
        exact ⟨⟨'$', _, rfl, by decide⟩,
          (splits_quotedParameter own).weaken fun _ apart => apart.not_backQuote⟩

/-- An identifier is spelled by its token, `bareName`. -/
theorem spells_word (identifier : Name.isIdentifier own = true) :
    Spells own.toList [bareName own] := by
  obtain ⟨c, more, same, start, -⟩ := toList_of_isIdentifier identifier
  exact ⟨⟨c, more, same, not_isBlank_of_isStart start⟩, splits_bareName identifier⟩

/-- The text of a literal, `literalText`, is its pieces. -/
theorem spells_literal {value : Literal} (written : literalText value = .ok text) :
    Spells text (literal value) := by
  cases value with
  | null => cases written; exact spells_word (by decide)
  | boolean value =>
      cases value with
      | true => cases written; exact spells_word (by decide)
      | false => cases written; exact spells_word (by decide)
  | integer value => cases written; exact spells_signedDigits value.toInt
  | float value =>
      rw [literalText] at written
      split at written
      · next finite => cases written; exact Binary64.spells_text finite
      · cases written
  | string value =>
      cases written
      exact ⟨⟨singleQuote, _, rfl, by decide⟩,
        (splits_string value).weaken fun _ _ => trivial⟩

/-- A text that `Spells` may follow a blank: with the blank it `Continues`. -/
theorem Scan.Spells.behindBlank {parts : List Piece} (spells : Spells text parts) :
    Continues (' ' :: text) (space :: parts) :=
  ⟨joins_cons (by decide) text, (splits_blank rfl).spell spells⟩

/-- The text of words with a blank between two of them. -/
def phraseText (words : List String) : List Char :=
  (phrase words).flatMap Piece.text

/-- Words with blanks between them, `phraseText`, are spelled by their tokens. -/
theorem spells_phrase (words : List String) (nonempty : words ≠ [])
    (all : ∀ word ∈ words, Name.isIdentifier word = true) :
    Spells (phraseText words) (phrase words) := by
  induction words with
  | nil => exact absurd rfl nonempty
  | cons word rest ih =>
      obtain ⟨identifier, others⟩ := List.forall_mem_cons.mp all
      cases rest with
      | nil =>
          rw [phraseText, phrase, List.flatMap_cons, List.flatMap_nil, List.append_nil]
          exact spells_word identifier
      | cons next rest =>
          exact (spells_word identifier).join (ih (List.cons_ne_nil next rest) others).behindBlank

/-- A text that starts visibly and ends with a blank that is a piece of its own, in front of
something `Visible`. -/
structure Introduces (text : List Char) (parts : List Piece) : Prop where
  /-- The text starts visibly. -/
  solid : Solid text
  /-- In front of something visible, the text is cut into the pieces. -/
  splits : Splits Visible text parts

/-- A text that `Introduces` may stand before one that `Spells`. -/
theorem Introduces.spell {parts others : List Piece} {more : List Char}
    (first : Introduces text parts) (second : Spells more others) :
    Spells (text ++ more) (parts ++ others) :=
  ⟨first.solid.append more, first.splits.spell second⟩

/-- Words with a blank behind them introduce what follows: `Introduces` of a `phrase`. -/
theorem introduces_phrase (words : List String) (nonempty : words ≠ [])
    (all : ∀ word ∈ words, Name.isIdentifier word = true) {text : List Char}
    (same : text = phraseText words ++ [' ']) : Introduces text (phrase words ++ [space]) := by
  have spells := spells_phrase words nonempty all
  rw [same]
  exact ⟨spells.solid.append [' '],
    spells.splits.append (splits_blank rfl) fun rest _ => apart_cons (by decide) rest⟩

end Words

/-! ## Operators -/

/-- A character that is a piece on its own, with a blank behind it, `Introduces` what follows. -/
theorem introduces_mark {c : Char} {found : Piece} (alone : ∀ text, piece c text = (found, text))
    (visible : isBlank c = false) : Introduces [c, ' '] [found, space] :=
  ⟨⟨c, [' '], rfl, visible⟩, (splits_mark alone).before (splits_blank rfl)⟩

/-- A character that is a piece on its own may stand before what `Introduces`. -/
theorem Introduces.cons {c : Char} {found : Piece} {text : List Char} {parts : List Piece}
    (introduces : Introduces text parts) (alone : ∀ text, piece c text = (found, text))
    (visible : isBlank c = false) : Introduces (c :: text) (found :: parts) :=
  ⟨⟨c, text, rfl, visible⟩, (splits_mark alone).before introduces.splits⟩

/-- The mark `<`, a fault on its own, may stand before a text that does not start with a line. -/
theorem splits_less_cons {c : Char} (other : c ≠ '-') {text : List Char} {parts : List Piece}
    (splits : Splits Visible (c :: text) parts) :
    Introduces ('<' :: c :: text) (.fault ['<'] :: parts) :=
  ⟨⟨'<', c :: text, rfl, by decide⟩,
    splits_less.append splits fun rest _ arrow => other (Option.some.inj arrow)⟩

/-- A `comparison` with a blank behind it introduces its second operand. -/
theorem introduces_comparison (op : Comparison) :
    Introduces (op.word.toList ++ [' ']) (comparison op ++ [space]) := by
  have equal := introduces_mark (c := '=') (fun _ => rfl) (by decide)
  have greater := introduces_mark (c := '>') (fun _ => rfl) (by decide)
  have tilde := introduces_mark (c := '~') (fun _ => rfl) (by decide)
  -- `<` is the one mark that could join with what follows it, and a line never does here.
  cases op with
  | equal => exact equal
  | notEqual => exact splits_less_cons (by decide) greater.splits
  | less => exact splits_less_cons (by decide) (splits_blank rfl)
  | lessOrEqual => exact splits_less_cons (by decide) equal.splits
  | greater => exact greater
  | greaterOrEqual => exact equal.cons (fun _ => rfl) (by decide)
  | startsWith => exact introduces_phrase ["STARTS", "WITH"] (by decide) (by decide) (by decide)
  | endsWith => exact introduces_phrase ["ENDS", "WITH"] (by decide) (by decide) (by decide)
  | contains => exact introduces_phrase ["CONTAINS"] (by decide) (by decide) (by decide)
  | matchesRegex => exact tilde.cons (fun _ => rfl) (by decide)

/-- A connective with a blank behind it introduces its second operand: `Introduces` its word and a
`space`. -/
theorem introduces_connective (op : Connective) :
    Introduces (op.word.toList ++ [' ']) (phrase [op.word] ++ [space]) := by
  cases op with
  | and => exact introduces_phrase ["AND"] (by decide) (by decide) (by decide)
  | or => exact introduces_phrase ["OR"] (by decide) (by decide) (by decide)
  | xor => exact introduces_phrase ["XOR"] (by decide) (by decide) (by decide)

/-- Behind a blank, a text that `Introduces` another one continues what is before. -/
theorem Introduces.continue {word text : List Char} {wordParts parts : List Piece}
    (introduces : Introduces word wordParts) (spells : Spells text parts) :
    Continues (' ' :: word ++ text) (space :: wordParts ++ parts) :=
  (introduces.spell spells).behindBlank

/-! ## Lists -/

/-- A separator whose pieces `between` stand between any two texts, the second of which is
spelled. -/
def Separates (separator : List Char) (between : List Piece) : Prop :=
  ∀ {text : List Char} {parts : List Piece}, Spells text parts →
    Continues (separator ++ text) (between ++ parts)

/-- A comma and a blank, `commaText`, are what `Separates`. -/
theorem separates_comma : Separates commaText comma :=
  fun spells => spells.behindBlank.splits.continue (by decide) fun _ => rfl

/-- What stands between clauses, `clauseSeparator`, is what `Separates`. -/
theorem separates_clauses (config : RenderConfig) :
    Separates config.clauseSeparator [.blank config.clauseSeparator] := by
  intro text parts spells
  rw [RenderConfig.clauseSeparator]
  cases config.pretty with
  | true => exact ⟨joins_cons (by decide) text, (splits_blank rfl).spell spells⟩
  | false => exact spells.behindBlank

section Lists

variable {α : Type} {print : α → Rendered} {spell : α → List Piece} {separator : List Char}
  {between : List Piece} {items : List α} {text : List Char}

/-- The items of a list are spelled with separators between them: `Print.separated` spells
`separated`. -/
theorem spells_separated (separates : Separates separator between)
    (each : ∀ item ∈ items, ∀ text, print item = .ok text → Spells text (spell item))
    (written : Print.separated separator print items = .ok text) (nonempty : items ≠ []) :
    Spells text (separated between spell items) := by
  induction items generalizing text with
  | nil => exact absurd rfl nonempty
  | cons item rest ih =>
      obtain ⟨first, others⟩ := List.forall_mem_cons.mp each
      cases rest with
      | nil => exact first text written
      | cons next rest =>
          simp only [Print.separated, Attempt.bind_eq_ok, Attempt.pure_eq_ok] at written
          obtain ⟨one, oneWritten, more, moreWritten, rfl⟩ := written
          have later := ih others moreWritten (List.cons_ne_nil next rest)
          exact (first one oneWritten).join (separates later)

/-- A list that may be empty is spelled with its closing mark `c` behind it. -/
theorem spells_closed (separates : Separates separator between)
    (each : ∀ item ∈ items, ∀ text, print item = .ok text → Spells text (spell item))
    (written : Print.separated separator print items = .ok text) {c : Char} {found : Piece}
    (alone : ∀ text, piece c text = (found, text)) (closes : isSeparator c = true)
    (visible : isBlank c = false) :
    Spells (text ++ [c]) (separated between spell items ++ [found]) := by
  have closing : Continues [c] [found] := (splits_nil Apart).continue closes alone
  -- An empty list has no text to join the closing mark to.
  by_cases empty : items = []
  · subst empty
    cases written
    exact ⟨⟨c, [], rfl, visible⟩, closing.splits⟩
  · exact (spells_separated separates each written empty).join closing

/-- A part that may be missing `Continues` if the part does. -/
theorem continues_optional {part : Option α}
    (each : ∀ item ∈ part, ∀ text, print item = .ok text → Continues text (spell item))
    (written : Print.optional print part = .ok text) : Continues text (optional spell part) := by
  cases part with
  | none => cases written; exact continues_nil
  | some item => exact each item rfl text written

end Lists

/-! ## Expressions -/

section Expressions

variable (config : RenderConfig)

/-- The pieces of arguments are those of a list of expressions, `separated` by commas. -/
theorem spelling_expressions_eq_separated (arguments : List Expression) :
    expressions config arguments = separated comma (expression config) arguments := by
  induction arguments with
  | nil => rfl
  | cons e rest ih =>
      cases rest with
      | nil => rfl
      | cons next rest => rw [expressions, separated, ih]

/-- The word `DISTINCT` introduces what it stands before. -/
theorem spells_distinct (distinct : Bool) {text : List Char} {parts : List Piece}
    (spells : Spells text parts) :
    Spells ((if distinct then "DISTINCT ".toList else []) ++ text)
      (distinctness distinct ++ parts) := by
  cases distinct with
  | true => exact (introduces_phrase ["DISTINCT"] (by decide) (by decide) (by decide)).spell spells
  | false => exact spells

/-- The text of a call `Spells` its pieces if the text of each argument does. -/
theorem spells_call {function : String} {arguments : List Expression} {text : List Char}
    (distinct : Bool) (identifier : Name.isIdentifier function = true)
    (each : ∀ e ∈ arguments, ∀ text, Print.expression config e = .ok text →
      Spells text (expression config e))
    (written : Print.expression config (.call function distinct arguments) = .ok text) :
    Spells text (expression config (.call function distinct arguments)) := by
  simp only [Print.expression, Attempt.bind_eq_ok, Attempt.pure_eq_ok] at written
  obtain ⟨list, listWritten, rfl⟩ := written
  rw [Render.expressions_eq_separated] at listWritten
  -- There need not be an argument, and so the list is taken together with the closing mark.
  have closed := spells_closed separates_comma each listWritten (c := ')') (fun _ => rfl)
    (by decide) (by decide)
  have opened := (spells_distinct distinct closed).splits.continue (c := '(') (by decide)
    fun _ => rfl
  rw [expression, spelling_expressions_eq_separated]
  exact (spells_word identifier).join opened

mutual

/-- The text of an expression is its pieces, by induction on the expression: `Print.expression`
spells `Spelling.expression`. -/
theorem spells_expression (e : Expression) (words : ∀ part ∈ e.preorder, part.HasWordFunction) :
    ∀ text, Print.expression config e = .ok text → Spells text (expression config e) := by
  intro text written
  match e with
  | .literal value =>
      rw [Print.expression] at written
      exact spells_literal written
  | .parameter own =>
      rw [Print.expression] at written
      exact spells_parameter written
  | .variable own =>
      rw [Print.expression] at written
      exact spells_name written
  | .asterisk =>
      cases written
      exact ⟨⟨'*', [], rfl, by decide⟩, (splits_mark fun _ => rfl).weaken fun _ _ => trivial⟩
  | .property subject key =>
      simp only [Print.expression, Attempt.bind_eq_ok, Attempt.pure_eq_ok] at written
      obtain ⟨before, subjectWritten, own, keyWritten, rfl⟩ := written
      have inside := spells_expression subject (List.forall_mem_cons.mp words).2 _ subjectWritten
      -- A digit behind the point would make a number of an integer before it.
      have point : Continues ('.' :: own) [mark .dot '.', name config key] :=
        ⟨fun rest _ => apart_point (not_isDigit_of_nameText keyWritten rest),
          (splits_mark fun _ => rfl).before (spells_name keyWritten).splits⟩
      exact inside.join point
  | .call function distinct arguments =>
      obtain ⟨identifier, inner⟩ := List.forall_mem_cons.mp words
      exact spells_call config distinct identifier (spells_each arguments inner) written
  | .comparison op left right =>
      simp only [Print.expression, Attempt.bind_eq_ok, Attempt.pure_eq_ok] at written
      obtain ⟨before, leftWritten, behind, rightWritten, rfl⟩ := written
      obtain ⟨leftWords, rightWords⟩ := List.forall_mem_append.mp (List.forall_mem_cons.mp words).2
      have first := spells_expression left leftWords _ leftWritten
      have second := spells_expression right rightWords _ rightWritten
      exact first.join ((introduces_comparison op).continue second)
  | .logical op left right =>
      simp only [Print.expression, Attempt.bind_eq_ok, Attempt.pure_eq_ok] at written
      obtain ⟨before, leftWritten, behind, rightWritten, rfl⟩ := written
      obtain ⟨leftWords, rightWords⟩ := List.forall_mem_append.mp (List.forall_mem_cons.mp words).2
      have first := spells_expression left leftWords _ leftWritten
      have second := spells_expression right rightWords _ rightWritten
      exact first.join ((introduces_connective op).continue second)
  | .unary op operand =>
      simp only [Print.expression, Attempt.bind_eq_ok, Attempt.pure_eq_ok] at written
      obtain ⟨own, operandWritten, rfl⟩ := written
      have inside := spells_expression operand (List.forall_mem_cons.mp words).2 _ operandWritten
      cases op with
      | not => exact (introduces_phrase ["NOT"] (by decide) (by decide) (by decide)).spell inside
      | isNull =>
          have missing := spells_phrase ["IS", "NULL"] (by decide) (by decide)
          exact inside.join missing.behindBlank
      | isNotNull =>
          have present := spells_phrase ["IS", "NOT", "NULL"] (by decide) (by decide)
          exact inside.join present.behindBlank
  | .nested inner =>
      simp only [Print.expression, Attempt.bind_eq_ok, Attempt.pure_eq_ok] at written
      obtain ⟨own, innerWritten, rfl⟩ := written
      have inside := spells_expression inner (List.forall_mem_cons.mp words).2 _ innerWritten
      have closing : Continues [')'] [mark .rightParen ')'] :=
        (splits_nil Apart).continue (by decide) fun _ => rfl
      have opened := (inside.join closing).splits.continue (c := '(') (by decide) fun _ => rfl
      exact ⟨⟨'(', _, rfl, by decide⟩, opened.splits⟩
  | .aliased inner own =>
      simp only [Print.expression, Attempt.bind_eq_ok, Attempt.pure_eq_ok] at written
      obtain ⟨before, innerWritten, new, ownWritten, rfl⟩ := written
      have inside := spells_expression inner (List.forall_mem_cons.mp words).2 _ innerWritten
      have renamed := (introduces_phrase ["AS"] (by decide) (by decide) rfl).continue
        (spells_name ownWritten)
      exact inside.join renamed

/-- The text of each of some expressions is its pieces: it `Spells` them. -/
theorem spells_each (es : List Expression)
    (words : ∀ part ∈ Expression.preorderAll es, part.HasWordFunction) :
    ∀ e ∈ es, ∀ text, Print.expression config e = .ok text → Spells text (expression config e) := by
  match es with
  | [] => exact fun _ member => absurd member List.not_mem_nil
  | e :: rest =>
      obtain ⟨first, others⟩ := List.forall_mem_append.mp words
      exact List.forall_mem_cons.mpr ⟨spells_expression e first, spells_each rest others⟩

end

end Expressions

/-! ## Nodes and relationships -/

section Patterns

variable (config : RenderConfig)

/-- The text of an entry is its pieces: `Print.entry` spells `Spelling.entry`. -/
theorem spells_entry (e : PropertyEntry) (words : ∀ part ∈ e.value.preorder, part.HasWordFunction) :
    ∀ text, Print.entry config e = .ok text → Spells text (entry config e) := by
  intro text written
  simp only [Print.entry, Attempt.bind_eq_ok, Attempt.pure_eq_ok] at written
  obtain ⟨key, keyWritten, value, valueWritten, rfl⟩ := written
  have behind := (spells_expression config e.value words value valueWritten).behindBlank
  exact (spells_name keyWritten).join (behind.splits.continue (c := ':') (by decide) fun _ => rfl)

/-- The text of a property map `Continues` what is before. -/
theorem continues_properties {follows : Bool} (map : PropertyMap)
    (words : ∀ part ∈ map.preorder, part.HasWordFunction) :
    ∀ text, Print.properties config follows map = .ok text →
      Continues text (properties config follows map) := by
  intro text written
  simp only [Print.properties, Attempt.bind_eq_ok, Attempt.pure_eq_ok] at written
  obtain ⟨list, listWritten, rfl⟩ := written
  have closed := spells_closed (c := '\x7d') separates_comma
    (fun e member => spells_entry config e (List.forall_mem_flatMap.mp words e member))
    listWritten (fun _ => rfl) (by decide) (by decide)
  have opened := closed.splits.continue (c := '\x7b') (by decide) fun _ => rfl
  cases follows with
  | true => exact opened
  | false =>
      have solid : Spells ('\x7b' :: (list ++ ['\x7d'])) _ :=
        ⟨⟨'\x7b', _, rfl, by decide⟩, opened.splits⟩
      exact solid.behindBlank

/-- The texts of names behind marks, `Print.marked`, continue what is before. -/
theorem continues_marked {context : NameContext} {first next : Char} {firstMark nextMark : Piece}
    (firstAlone : ∀ text, piece first text = (firstMark, text))
    (nextAlone : ∀ text, piece next text = (nextMark, text))
    (firstSeparates : isSeparator first = true) (nextSeparates : isSeparator next = true)
    (names : List String) :
    ∀ text, Print.marked config context first next names = .ok text →
      Continues text (marked config firstMark nextMark names) := by
  induction names generalizing first firstMark with
  | nil => intro text written; cases written; exact continues_nil
  | cons own rest ih =>
      intro text written
      simp only [Print.marked, Attempt.bind_eq_ok, Attempt.pure_eq_ok] at written
      obtain ⟨one, oneWritten, more, moreWritten, rfl⟩ := written
      -- Behind the first name all marks are the next one.
      have later := ih nextAlone nextSeparates more moreWritten
      exact ((spells_name oneWritten).join later).splits.continue firstSeparates firstAlone

/-- A name that may be missing is spelled by its piece, as `Spelling.optional` has it. -/
theorem splits_optionalName {context : NameContext} {own : Option String} {text : List Char}
    (written : Print.optional (nameText config context) own = .ok text) :
    Splits Apart text (optional (fun own => [name config own]) own) := by
  cases own with
  | none => cases written; exact splits_nil Apart
  | some own => exact (spells_name written).splits

/-- A closing mark `Continues` what is before. -/
theorem continues_mark {c : Char} {found : Piece} (separates : isSeparator c = true)
    (alone : ∀ text, piece c text = (found, text)) : Continues [c] [found] :=
  (splits_nil Apart).continue separates alone

/-- The text of a node is its pieces: `Print.node` spells `Spelling.node`. -/
theorem spells_node (n : Node) (words : ∀ part ∈ n.preorder, part.HasWordFunction) :
    ∀ text, Print.node config n = .ok text → Spells text (node config n) := by
  intro text written
  simp only [Print.node, Attempt.bind_eq_ok, Attempt.pure_eq_ok] at written
  obtain ⟨own, ownWritten, labels, labelsWritten, map, mapWritten, rfl⟩ := written
  have inner := (List.forall_mem_cons.mp words).2
  have properties := continues_optional (fun item present => continues_properties config item
    (by rw [present] at inner; exact inner)) mapWritten
  have named := continues_marked config (fun _ => rfl) (fun _ => rfl) (by decide) (by decide)
    n.labels labels labelsWritten
  have closed := named.join (properties.join (continues_mark (c := ')') (by decide) fun _ => rfl))
  have whole := (splits_optionalName config ownWritten).join closed
  exact ⟨⟨'(', _, rfl, by decide⟩, (splits_mark fun _ => rfl).before whole⟩

/-- The text of what is asked of a relationship, `Print.details`, continues its opening mark. -/
theorem continues_details (r : Relationship) (words : ∀ part ∈ r.preorder, part.HasWordFunction) :
    ∀ text, Print.details config r = .ok text → Continues text (details config r) := by
  intro text written
  simp only [Print.details, Attempt.bind_eq_ok, Attempt.pure_eq_ok] at written
  obtain ⟨own, ownWritten, types, typesWritten, map, mapWritten, rfl⟩ := written
  have inner := (List.forall_mem_cons.mp words).2
  have properties := continues_optional (fun item present => continues_properties config item
    (by rw [present] at inner; exact inner)) mapWritten
  have named := continues_marked config (fun _ => rfl) (fun _ => rfl) (by decide) (by decide)
    r.types types typesWritten
  have closed := named.join (properties.join (continues_mark (c := ']') (by decide) fun _ => rfl))
  have whole := (splits_optionalName config ownWritten).join closed
  exact whole.continue (by decide) fun _ => rfl

/-- The text of a node starts with `(`. -/
theorem nodeText_eq {n : Node} {text : List Char} (written : Print.node config n = .ok text) :
    ∃ more, text = '(' :: more := by
  simp only [Print.node, Attempt.bind_eq_ok, Attempt.pure_eq_ok] at written
  obtain ⟨_, -, _, -, _, -, rfl⟩ := written
  exact ⟨_, rfl⟩

/-- The text of what is asked of a relationship, `Print.details`, starts with `[`. -/
theorem detailsText_eq {r : Relationship} {text : List Char}
    (written : Print.details config r = .ok text) : ∃ more, text = '[' :: more := by
  simp only [Print.details, Attempt.bind_eq_ok, Attempt.pure_eq_ok] at written
  obtain ⟨_, -, _, -, _, -, rfl⟩ := written
  exact ⟨_, rfl⟩

/-- What ends a relationship, `closingMark`, may stand before anything but an arrow head. -/
theorem splits_closing (direction : Direction) :
    Splits (NotStartedBy '>') (closingMark direction) [closing direction] := by
  cases direction with
  | outgoing => exact splits_rightArrow.weaken fun _ _ => trivial
  | incoming => exact splits_dash
  | undirected => exact splits_dash

/-- What starts a relationship, `openingMark`, may stand before anything but an arrow head. -/
theorem splits_opening (direction : Direction) :
    Splits (NotStartedBy '>') (openingMark direction) [opening direction] := by
  cases direction with
  | outgoing => exact splits_dash
  | incoming => exact splits_leftArrow.weaken fun _ _ => trivial
  | undirected => exact splits_dash

/-- The text of a relationship is its marks with the `details` between them, or none of those for
one that `isBare`. -/
theorem relationship_eq_ok {r : Relationship} {text : List Char} :
    Print.relationship config r = .ok text ↔
      ∃ inside, (if r.isBare then .ok [] else Print.details config r : Rendered) = .ok inside ∧
        openingMark r.direction ++ (inside ++ closingMark r.direction) = text := by
  rw [Print.relationship]
  cases r.isBare with
  | true => exact Attempt.bind_eq_ok.trans (exists_congr fun _ => and_congr_right fun _ =>
      Attempt.pure_eq_ok)
  | false => exact Attempt.bind_eq_ok.trans (exists_congr fun _ => and_congr_right fun _ =>
      Attempt.pure_eq_ok)

/-- What ends a relationship, its `closingMark`, starts with a line. -/
theorem closingMark_eq (direction : Direction) :
    ∃ more, closingMark direction = '-' :: more := by
  cases direction with
  | outgoing => exact ⟨['>'], rfl⟩
  | incoming => exact ⟨[], rfl⟩
  | undirected => exact ⟨[], rfl⟩

/-- The text of a relationship is its pieces and `Joins` what is before, but no arrow head may
follow it. -/
theorem splits_relationship (r : Relationship)
    (words : ∀ part ∈ r.preorder, part.HasWordFunction) :
    ∀ text, Print.relationship config r = .ok text →
      Joins text ∧ Splits (NotStartedBy '>') text (relationship config r) := by
  intro text written
  obtain ⟨inside, insideWritten, rfl⟩ := (relationship_eq_ok config).mp written
  obtain ⟨more, closes⟩ := closingMark_eq r.direction
  -- Every direction starts with `-` or `<`, and neither goes on with a name or a number.
  constructor
  · intro rest _
    cases r.direction with
    | outgoing => exact apart_cons (by decide) _
    | incoming => exact apart_cons (by decide) _
    | undirected => exact apart_cons (by decide) _
  · rw [relationship]
    by_cases bare : r.isBare = true
    · rw [if_pos bare] at insideWritten ⊢
      cases insideWritten
      refine (splits_opening r.direction).append (splits_closing r.direction) fun rest _ => ?_
      rw [closes]
      intro arrow
      cases arrow
    · rw [if_neg bare] at insideWritten ⊢
      have asked := continues_details config r words inside insideWritten
      have closed : Splits (NotStartedBy '>') (inside ++ closingMark r.direction)
          (details config r ++ [closing r.direction]) := by
        refine asked.splits.append (splits_closing r.direction) fun rest _ => ?_
        rw [closes]
        exact apart_cons (by decide) _
      refine (splits_opening r.direction).append closed fun rest _ => ?_
      obtain ⟨_, rfl⟩ := detailsText_eq config insideWritten
      intro arrow
      cases arrow

/-- The texts of the steps of a path, `Print.hops`, continue what is before: the arrows that they
start with are separating characters. -/
theorem continues_hops (steps : List Hop)
    (words : ∀ part ∈ steps.flatMap Hop.preorder, part.HasWordFunction) :
    ∀ text, Print.hops config steps = .ok text → Continues text (hops config steps) := by
  induction steps with
  | nil => intro text written; cases written; exact continues_nil
  | cons hop rest ih =>
      intro text written
      simp only [Print.hops, Attempt.bind_eq_ok, Attempt.pure_eq_ok] at written
      obtain ⟨relation, relationWritten, target, targetWritten, others, othersWritten, rfl⟩ :=
        written
      rw [List.flatMap_cons, List.forall_mem_append] at words
      obtain ⟨relationWords, targetWords⟩ := List.forall_mem_append.mp words.1
      obtain ⟨joins, splits⟩ :=
        splits_relationship config hop.relationship relationWords relation relationWritten
      have node := spells_node config hop.node targetWords target targetWritten
      have later := node.join (ih words.2 others othersWritten)
      -- A relationship may end with a line, and so it matters that a node starts with no arrow
      -- head.
      obtain ⟨_, rfl⟩ := nodeText_eq config targetWritten
      refine ⟨fun behind apart => ?_, splits.append later.splits fun behind _ => ?_⟩
      · rw [List.append_assoc]
        exact joins _ (apart_cons (by decide) _)
      · intro arrow
        cases arrow

/-- The text of an element is its pieces: `Print.element` spells `Spelling.element`. -/
theorem spells_element (e : PatternElement) (words : ∀ part ∈ e.preorder, part.HasWordFunction) :
    ∀ text, Print.element config e = .ok text → Spells text (element config e) := by
  intro text written
  cases e with
  | node single => exact spells_node config single words text written
  | chain path =>
      simp only [Print.element, Attempt.bind_eq_ok, Attempt.pure_eq_ok] at written
      obtain ⟨start, startWritten, steps, stepsWritten, rfl⟩ := written
      obtain ⟨startWords, stepsWords⟩ := List.forall_mem_append.mp words
      exact (spells_node config path.start startWords start startWritten).join
        (continues_hops config path.hops stepsWords steps stepsWritten)

/-- The text of a pattern is its pieces: `Print.pattern` spells `Spelling.pattern`. -/
theorem spells_pattern (p : Pattern) (words : ∀ part ∈ p.preorder, part.HasWordFunction) :
    ∀ text, Print.pattern config p = .ok text → Spells text (pattern config p) := by
  intro text written
  rw [Print.pattern] at written
  have inner := (List.forall_mem_cons.mp words).2
  split at written
  · cases written
  · next nonempty =>
      exact spells_separated separates_comma
        (fun e member => spells_element config e (List.forall_mem_flatMap.mp inner e member))
        written fun empty => nonempty (by rw [empty]; rfl)

end Patterns

/-! ## Clauses and statements -/

section Statements

variable (config : RenderConfig)

/-- The text of a condition `Continues` what is before. -/
theorem continues_condition (e : Expression)
    (words : ∀ part ∈ conditionPreorder e, part.HasWordFunction) :
    ∀ text, Print.condition config e = .ok text → Continues text (condition config e) := by
  intro text written
  simp only [Print.condition, Attempt.bind_eq_ok, Attempt.pure_eq_ok] at written
  obtain ⟨own, ownWritten, rfl⟩ := written
  have filter := spells_expression config e (List.forall_mem_cons.mp words).2 own ownWritten
  exact (introduces_phrase ["WHERE"] (by decide) (by decide) rfl).continue filter

/-- The text of a reading clause is its pieces: `Print.reading` spells `Spelling.reading`. -/
theorem spells_reading (clause : Match) (words : ∀ part ∈ clause.preorder, part.HasWordFunction) :
    ∀ text, Print.reading config clause = .ok text → Spells text (reading config clause) := by
  intro text written
  simp only [Print.reading, Attempt.bind_eq_ok, Attempt.pure_eq_ok] at written
  obtain ⟨what, whatWritten, filter, filterWritten, rfl⟩ := written
  obtain ⟨whatWords, filterWords⟩ :=
    List.forall_mem_append.mp (List.forall_mem_cons.mp words).2
  have found := spells_pattern config clause.pattern whatWords what whatWritten
  have filtered := found.join (continues_optional (fun item present =>
    continues_condition config item (by rw [present] at filterWords; exact filterWords))
    filterWritten)
  rw [reading, matchText]
  cases clause.optional with
  | true =>
      exact (introduces_phrase ["OPTIONAL", "MATCH"] (by decide) (by decide)
        (by decide)).spell filtered
  | false => exact (introduces_phrase ["MATCH"] (by decide) (by decide) (by decide)).spell filtered

/-- The text of a projection is its pieces: `Print.projection` spells `Spelling.projection`. -/
theorem spells_projection (p : Projection)
    (words : ∀ part ∈ p.items.flatMap Expression.preorder, part.HasWordFunction) :
    ∀ text, Print.projection config p = .ok text → Spells text (projection config p) := by
  intro text written
  rw [Print.projection] at written
  split at written
  · cases written
  · next nonempty =>
      simp only [Attempt.bind_eq_ok, Attempt.pure_eq_ok] at written
      obtain ⟨list, listWritten, rfl⟩ := written
      have items := spells_separated separates_comma (fun e member =>
        spells_expression config e (List.forall_mem_flatMap.mp words e member)) listWritten
        fun empty => nonempty (by rw [empty]; rfl)
      exact spells_distinct p.distinct items

/-- The text of a sort criterion is its pieces: `Print.sortItem` spells `Spelling.sortItem`. -/
theorem spells_sortItem (item : SortItem) (words : ∀ part ∈ item.preorder, part.HasWordFunction) :
    ∀ text, Print.sortItem config item = .ok text → Spells text (sortItem config item) := by
  intro text written
  simp only [Print.sortItem, Attempt.bind_eq_ok, Attempt.pure_eq_ok] at written
  obtain ⟨own, ownWritten, rfl⟩ := written
  have inside := spells_expression config item.expression (List.forall_mem_cons.mp words).2 own
    ownWritten
  rw [sortItem]
  -- Without a direction nothing is written behind the expression.
  cases item.direction with
  | none => exact inside.join continues_nil
  | some direction =>
      cases direction with
      | ascending => exact inside.join (spells_word (by decide)).behindBlank
      | descending => exact inside.join (spells_word (by decide)).behindBlank

/-- The text of an order `Continues` what is before. -/
theorem continues_order (items : List SortItem)
    (words : ∀ part ∈ items.flatMap SortItem.preorder, part.HasWordFunction) :
    ∀ text, Print.order config items = .ok text → Continues text (order config items) := by
  intro text written
  rw [Print.order] at written
  split at written
  · cases written
  · next nonempty =>
      simp only [Attempt.bind_eq_ok, Attempt.pure_eq_ok] at written
      obtain ⟨list, listWritten, rfl⟩ := written
      have sorted := spells_separated separates_comma (fun item member =>
        spells_sortItem config item (List.forall_mem_flatMap.mp words item member)) listWritten
        fun empty => nonempty (by rw [empty]; rfl)
      exact (introduces_phrase ["ORDER", "BY"] (by decide) (by decide) (by decide)).continue sorted

/-- The text of a number of rows `Continues` what is before. -/
theorem continues_count (kind : CountClause) (e : Expression)
    (words : ∀ part ∈ e.preorder, part.HasWordFunction) :
    ∀ text, Print.count config kind e = .ok text → Continues text (count config kind e) := by
  intro text written
  rw [Print.count] at written
  cases checked : checkCount kind e with
  | error failure => rw [checked] at written; cases written
  | ok =>
      rw [checked] at written
      replace written : (do
        let own ← Print.expression config e
        return ' ' :: (kind.word.toList ++ ' ' :: own) : Rendered) = .ok text := written
      simp only [Attempt.bind_eq_ok, Attempt.pure_eq_ok] at written
      obtain ⟨own, ownWritten, rfl⟩ := written
      have rows := spells_expression config e words own ownWritten
      -- Both clauses are a word behind a blank, and then the expression.
      cases kind with
      | skip => exact (introduces_phrase ["SKIP"] (by decide) (by decide) rfl).continue rows
      | limit => exact (introduces_phrase ["LIMIT"] (by decide) (by decide) rfl).continue rows

/-- The text of a projecting clause is its pieces: `Print.returning` spells `Spelling.returning`. -/
theorem spells_returning (clause : Return)
    (words : ∀ part ∈ clause.preorder, part.HasWordFunction) :
    ∀ text, Print.returning config clause = .ok text → Spells text (returning config clause) := by
  intro text written
  simp only [Print.returning, Attempt.bind_eq_ok, Attempt.pure_eq_ok] at written
  obtain ⟨items, itemsWritten, sorted, sortedWritten, skipped, skippedWritten, limited,
    limitedWritten, rfl⟩ := written
  have inner := (List.forall_mem_cons.mp words).2
  simp only [List.forall_mem_append] at inner
  obtain ⟨itemWords, orderWords, skipWords, limitWords⟩ := inner
  have answer := spells_projection config clause.projection itemWords items itemsWritten
  have ordered := continues_optional (fun list present => continues_order config list
    (by rw [present] at orderWords; exact orderWords)) sortedWritten
  have left := continues_optional (fun e present => continues_count config .skip e
    (by rw [present] at skipWords; exact skipWords)) skippedWritten
  have atMost := continues_optional (fun e present => continues_count config .limit e
    (by rw [present] at limitWords; exact limitWords)) limitedWritten
  have whole := answer.join (ordered.join (left.join atMost))
  exact (introduces_phrase ["RETURN"] (by decide) (by decide) (by decide)).spell whole

/-- The text of a clause is its pieces: `Print.clause` spells `Spelling.clause`. -/
theorem spells_clause (c : Clause) (words : ∀ part ∈ c.preorder, part.HasWordFunction) :
    ∀ text, Print.clause config c = .ok text → Spells text (clause config c) := by
  cases c with
  | reading c => exact spells_reading config c words
  | returning c => exact spells_returning config c words

/-- The text of a statement is its pieces: `Print.statement` spells `Spelling.statement`. -/
theorem spells_statement (s : Statement) (words : ∀ part ∈ s.preorder, part.HasWordFunction) :
    ∀ text, Print.statement config s = .ok text → Spells text (statement config s) := by
  intro text written
  rw [Print.statement] at written
  cases valid : s.validate with
  | error failure => rw [valid] at written; cases written
  | ok =>
      rw [valid] at written
      refine spells_separated (separates_clauses config)
        (fun c member => spells_clause config c (List.forall_mem_flatMap.mp words c member))
        written fun empty => ?_
      -- A statement without clauses reads nothing.
      rw [Statement.validate, Statement.readingClauses, empty] at valid
      cases valid

end Statements

end CypherQuery
