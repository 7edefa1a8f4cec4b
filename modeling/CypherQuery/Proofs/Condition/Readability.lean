import CypherQuery.Proofs.Condition.Reading

/-! # The text of a condition shows its grouping

The expressions that are `Composed` of constants, names, properties, calls, parentheses,
comparisons, tests, negations and connectives have a text, and it tells what they are composed of.
Where the operations put parentheses around an operand, the text would be read otherwise without
them; where they put none, only the grouping of a run of one connective is left open (`Regroups`).
The main statement, `rendering_keeps_grouping`, is that two such expressions have the same text
exactly if they differ in the grouping of such runs at most. -/

namespace CypherQuery

open Scan

namespace Expression

/-! ## Composed expressions -/

/-- The calls of the functions that queries commonly use, as functions of their argument. -/
def commonFunctions : List (Expression → Expression) :=
  [count, countDistinct, elementId, toLower, collectValues, sum, min, max, avg]

/-- Whether a key may be looked up in an expression: references, properties, a `call` and
`nested`. -/
def hasKeys : Expression → Bool
  | .variable _ | .parameter _ | .call _ _ _ | .nested _ | .property _ _ => true
  | .literal _ | .asterisk | .comparison _ _ _ | .logical _ _ _ | .unary _ _ | .aliased _ _ =>
      false

/-- The expressions composed, to any depth, of finite constants, names that are not empty and the
star by the operations for expressions: one constructor for each operation. -/
inductive Composed : Expression → Prop where
  /-- A constant; a number among them is finite. -/
  | literal (value : Literal) (finite : ∀ x, value = .float x → x.isFinite = true) :
      Composed (.literal value)
  /-- A reference to a parameter. -/
  | parameter {name : String} (named : name ≠ "") : Composed (.parameter name)
  /-- A reference to a variable. -/
  | variable {name : String} (named : name ≠ "") : Composed (.variable name)
  /-- The star. -/
  | asterisk : Composed .asterisk
  /-- A property of a variable, a parameter, a call, an expression in parentheses or a property. -/
  | property {subject : Expression} {key : String} (composed : Composed subject)
      (holds : subject.hasKeys = true) (named : key ≠ "") : Composed (.property subject key)
  /-- A call of a function that queries commonly use. -/
  | call {function : Expression → Expression} {argument : Expression}
      (common : function ∈ commonFunctions) (composed : Composed argument) :
      Composed (function argument)
  /-- An expression in parentheses. -/
  | nested {inner : Expression} (composed : Composed inner) : Composed (.nested inner)
  /-- A comparison. -/
  | compare (op : Comparison) {left right : Expression} (first : Composed left)
      (second : Composed right) : Composed (compare op left right)
  /-- The condition that there is no value. -/
  | isNull {e : Expression} (composed : Composed e) : Composed e.isNull
  /-- The condition that there is a value. -/
  | isNotNull {e : Expression} (composed : Composed e) : Composed e.isNotNull
  /-- A negation. -/
  | negation {e : Expression} (composed : Composed e) : Composed e.negation
  /-- A combination of two conditions. -/
  | combine (op : Connective) {left right : Expression} (first : Composed left)
      (second : Composed right) : Composed (combine op left right)

/-- What has keys, `hasKeys`, is an operand at the strongest level, `isOperand`. -/
theorem isOperand_of_hasKeys {subject : Expression} (holds : subject.hasKeys = true) :
    subject.isOperand = true := by
  unfold hasKeys at holds
  split at holds
  · rfl
  · rfl
  · rfl
  · rfl
  · rfl
  all_goals cases holds

/-- A common call, one of `commonFunctions`, is a call of a plain name with one argument. -/
theorem exists_of_common {function : Expression → Expression}
    (common : function ∈ commonFunctions) (argument : Expression) :
    ∃ name distinct, function argument = .call name distinct [argument] ∧
      Name.isPlain name = true := by
  simp only [commonFunctions, List.mem_cons, List.not_mem_nil, or_false] at common
  rcases common with rfl | rfl | rfl | rfl | rfl | rfl | rfl | rfl | rfl
  all_goals exact ⟨_, _, rfl, by decide⟩

/-- Expressions that are `Composed` are `Readable`: each operation keeps that. -/
theorem Composed.readable {e : Expression} (composed : Composed e) : e.Readable := by
  induction composed with
  | literal value _ => exact .of_symbol rfl rfl rfl
  | parameter _ => exact .of_symbol rfl rfl rfl
  | «variable» _ => exact .of_symbol rfl rfl rfl
  | asterisk => exact .of_symbol rfl rfl rfl
  | property _ holds _ ih => exact ih.property (isOperand_of_hasKeys holds) _
  | @call _ argument common _ ih =>
      obtain ⟨name, distinct, same, -⟩ := exists_of_common common argument
      rw [same]
      exact ih.call name distinct
  | nested _ ih => exact ih.nested
  | compare op _ _ ih ih' =>
      exact ih.grouped.1.comparison ih'.grouped.1 ih.grouped.2 ih'.grouped.2 op
  | isNull _ ih => exact ih.grouped.1.test ih.grouped.2 rfl
  | isNotNull _ ih => exact ih.grouped.1.test ih.grouped.2 rfl
  | negation _ ih => exact ih.negation
  | combine op _ _ ih ih' =>
      exact (ih.groupedIn op).1.logical (ih'.groupedIn op).1 (ih.groupedIn op).2
        (ih'.groupedIn op).2

/-! ## Expressions with a text -/

/-- The expressions whose constants and names have texts and whose calls are those of plain names
with one argument, whatever their operands are. -/
inductive Printable : Expression → Prop where
  /-- A constant. -/
  | literal {value : Literal} {text : List Char} (written : literalText value = .ok text) :
      Printable (.literal value)
  /-- A reference to a parameter. -/
  | parameter {name : String} (named : name ≠ "") : Printable (.parameter name)
  /-- A reference to a variable. -/
  | variable {name : String} (named : name ≠ "") : Printable (.variable name)
  /-- The star. -/
  | asterisk : Printable .asterisk
  /-- A property. -/
  | property {subject : Expression} {key : String} (printable : Printable subject)
      (named : key ≠ "") : Printable (.property subject key)
  /-- A call. -/
  | call {name : String} (distinct : Bool) {argument : Expression}
      (plain : Name.isPlain name = true) (printable : Printable argument) :
      Printable (.call name distinct [argument])
  /-- A comparison. -/
  | comparison (op : Comparison) {left right : Expression} (first : Printable left)
      (second : Printable right) : Printable (.comparison op left right)
  /-- A combination of two conditions. -/
  | logical (op : Connective) {left right : Expression} (first : Printable left)
      (second : Printable right) : Printable (.logical op left right)
  /-- An operator with one operand. -/
  | unary (op : UnaryOperator) {operand : Expression} (printable : Printable operand) :
      Printable (.unary op operand)
  /-- An expression in parentheses. -/
  | nested {inner : Expression} (printable : Printable inner) : Printable (.nested inner)

namespace Printable

/-- Grouping for a comparison, `grouped`, keeps the text. -/
theorem grouped {e : Expression} (printable : Printable e) : Printable e.grouped := by
  unfold Expression.grouped
  split
  · exact printable.nested
  · exact printable.nested
  · exact printable.nested
  · exact printable

/-- Grouping for a connective, `groupedIn`, keeps the text. -/
theorem groupedIn {e : Expression} (printable : Printable e) (op : Connective) :
    Printable (e.groupedIn op) := by
  unfold Expression.groupedIn
  split
  · split
    · exact printable
    · exact printable.nested
  · exact printable

/-- The `negation` of an expression with a text has one. -/
theorem negation {e : Expression} (printable : Printable e) : Printable e.negation := by
  unfold Expression.negation
  split
  · exact .unary .not printable.nested
  · exact .unary .not printable

/-- Every `Printable` expression has a text, under all options. -/
theorem exists_text (config : RenderConfig) {e : Expression} (printable : Printable e) :
    ∃ text, Print.expression config e = .ok text := by
  induction printable with
  | literal written => exact ⟨_, written⟩
  | parameter named => exact exists_parameterText named
  | «variable» named => exact exists_nameText config _ named
  | asterisk => exact ⟨_, rfl⟩
  | property _ named ih =>
      obtain ⟨before, subjectWritten⟩ := ih
      obtain ⟨behind, keyWritten⟩ := exists_nameText config .property named
      rw [Print.expression, subjectWritten, keyWritten]
      exact ⟨_, rfl⟩
  | call _ _ _ ih =>
      obtain ⟨inside, written⟩ := ih
      rw [Print.expression, Print.expressions, written]
      exact ⟨_, rfl⟩
  | comparison op _ _ ih ih' =>
      obtain ⟨before, leftWritten⟩ := ih
      obtain ⟨behind, rightWritten⟩ := ih'
      rw [Print.expression, leftWritten, rightWritten]
      exact ⟨_, rfl⟩
  | logical op _ _ ih ih' =>
      obtain ⟨before, leftWritten⟩ := ih
      obtain ⟨behind, rightWritten⟩ := ih'
      rw [Print.expression, leftWritten, rightWritten]
      exact ⟨_, rfl⟩
  | unary op _ ih =>
      obtain ⟨inside, written⟩ := ih
      rw [Print.expression, written]
      exact ⟨_, rfl⟩
  | nested _ ih =>
      obtain ⟨inside, written⟩ := ih
      rw [Print.expression, written]
      exact ⟨_, rfl⟩

/-- All calls in a `Printable` expression are those of identifiers. -/
theorem hasWordFunction {e : Expression} (printable : Printable e) :
    ∀ part ∈ e.preorder, part.HasWordFunction := by
  induction printable with
  | literal _ | parameter _ | «variable» _ | asterisk =>
      exact List.forall_mem_singleton.mpr trivial
  | property _ _ ih | unary _ _ ih | nested _ ih => exact List.forall_mem_cons.mpr ⟨trivial, ih⟩
  | call _ plain _ ih =>
      rw [Name.isPlain, Bool.and_eq_true] at plain
      refine List.forall_mem_cons.mpr ⟨plain.1, ?_⟩
      rw [preorderAll, preorderAll, List.append_nil]
      exact ih
  | comparison _ _ _ ih ih' | logical _ _ _ ih ih' =>
      exact List.forall_mem_cons.mpr ⟨trivial, List.forall_mem_append.mpr ⟨ih, ih'⟩⟩

/-- All symbols of a `Printable` expression have their own content only, `Symbol.Proper`. -/
theorem proper {e : Expression} (printable : Printable e) :
    ∀ symbol ∈ e.symbols, symbol.Proper := by
  induction printable with
  | literal written => exact List.forall_mem_singleton.mpr ⟨_, written⟩
  | parameter _ | «variable» _ | asterisk => exact List.forall_mem_singleton.mpr trivial
  | property _ _ ih =>
      exact List.forall_mem_append.mpr ⟨ih, List.forall_mem_singleton.mpr trivial⟩
  | call distinct plain _ ih =>
      have word : ∀ symbol ∈ (if distinct then [Symbol.distinct] else []), symbol.Proper := by
        split
        · exact List.forall_mem_singleton.mpr trivial
        · exact List.forall_mem_nil _
      exact List.forall_mem_cons.mpr ⟨plain, List.forall_mem_append.mpr ⟨word,
        List.forall_mem_append.mpr ⟨ih, List.forall_mem_singleton.mpr trivial⟩⟩⟩
  | comparison _ _ _ ih ih' | logical _ _ _ ih ih' =>
      exact List.forall_mem_append.mpr ⟨ih, List.forall_mem_cons.mpr ⟨trivial, ih'⟩⟩
  | unary op _ ih =>
      rw [symbols]
      split
      · exact List.forall_mem_cons.mpr ⟨trivial, ih⟩
      · exact List.forall_mem_append.mpr ⟨ih, List.forall_mem_singleton.mpr trivial⟩
  | nested _ ih =>
      exact List.forall_mem_cons.mpr ⟨trivial, List.forall_mem_append.mpr
        ⟨ih, List.forall_mem_singleton.mpr trivial⟩⟩

end Printable

/-- Expressions that are `Composed` are `Printable`. -/
theorem Composed.printable {e : Expression} (composed : Composed e) : Printable e := by
  induction composed with
  | literal value finite =>
      obtain ⟨text, written⟩ := exists_literalText finite
      exact .literal written
  | parameter named => exact .parameter named
  | «variable» named => exact .variable named
  | asterisk => exact .asterisk
  | property _ _ named ih => exact .property ih named
  | @call _ argument common _ ih =>
      obtain ⟨name, distinct, same, plain⟩ := exists_of_common common argument
      rw [same]
      exact .call distinct plain ih
  | nested _ ih => exact .nested ih
  | compare op _ _ ih ih' => exact .comparison op ih.grouped ih'.grouped
  | isNull _ ih => exact .unary .isNull ih.grouped
  | isNotNull _ ih => exact .unary .isNotNull ih.grouped
  | negation _ ih => exact ih.negation
  | combine op _ _ ih ih' => exact .logical op (ih.groupedIn op) (ih'.groupedIn op)

/-! ## The same text -/

/-- Expressions that are `Composed` and have the same text differ in the grouping of runs only,
`Regroups`: their pieces are the same, so their symbols are, and these determine what is read. -/
theorem Composed.regroups_of_print (config : RenderConfig) {e other : Expression}
    (composed : Composed e) (otherComposed : Composed other) {text : List Char}
    (written : Print.expression config e = .ok text)
    (otherWritten : Print.expression config other = .ok text) : Regroups e other := by
  have spelled {own : Expression} (printable : Printable own)
      (ownWritten : Print.expression config own = .ok text) :
      pieces text = Spelling.expression config own :=
    (spells_expression config own printable.hasWordFunction text ownWritten).splits.pieces_eq
      trivial
  have same := spelled composed.printable written
  rw [spelled otherComposed.printable otherWritten] at same
  exact regroups_of_symbols composed.readable otherComposed.readable
    (symbols_eq_of_spelling config composed.printable.proper otherComposed.printable.proper
      same.symm)

/-- Expressions that are `Composed` have a text, and two of them have the same text exactly if they
differ at most in the grouping of runs of one and the same connective, `Regroups`. -/
theorem rendering_keeps_grouping (config : RenderConfig) {e other : Expression}
    (composed : Composed e) (otherComposed : Composed other) :
    (∃ text, Renderer.renderExpression ⟨config⟩ e = .ok text ∧
      Renderer.renderExpression ⟨config⟩ other = .ok text) ↔ Regroups e other := by
  rw [Renderer.renderExpression_eq_print, Renderer.renderExpression_eq_print]
  constructor
  · rintro ⟨text, rendered, otherRendered⟩
    obtain ⟨chars, written, rfl⟩ := Renderer.map_ofList_eq_ok.mp rendered
    obtain ⟨otherChars, otherWritten, same⟩ := Renderer.map_ofList_eq_ok.mp otherRendered
    rw [String.ofList_inj.mp same] at otherWritten
    exact composed.regroups_of_print config otherComposed written otherWritten
  · intro regroups
    obtain ⟨chars, written⟩ := composed.printable.exists_text config
    rw [← regroups.print_eq config, written]
    exact ⟨String.ofList chars, rfl, rfl⟩

/-- Three conditions under the connective `and` have the same text however they are grouped. -/
theorem rendering_keeps_grouping_threeConditions :
    ∃ first second third : Expression,
      first = compare .equal (.property (.variable "n") "age") (.literal (.integer 42)) ∧
      second = negation (.parameter "hidden") ∧
      third = isNull (max (.variable "m")) ∧
      Composed (combine .and (combine .and first second) third) ∧
      Composed (combine .and first (combine .and second third)) ∧
      ∃ text,
        Renderer.renderExpression ⟨.plain⟩ (combine .and (combine .and first second) third)
          = .ok text ∧
        Renderer.renderExpression ⟨.plain⟩ (combine .and first (combine .and second third))
          = .ok text := by
  have age : Composed (compare .equal (.property (.variable "n") "age") (.literal (.integer 42))) :=
    .compare .equal (.property (.variable (by decide)) rfl (by decide)) (.literal _ nofun)
  have hidden : Composed (negation (.parameter "hidden")) := .negation (.parameter (by decide))
  have greatest : Composed (max (.variable "m")) :=
    .call (by simp [commonFunctions]) (.variable (by decide))
  have left := Composed.combine .and (.combine .and age hidden) greatest.isNull
  have right := Composed.combine .and age (.combine .and hidden greatest.isNull)
  exact ⟨_, _, _, rfl, rfl, rfl, left, right,
    (rendering_keeps_grouping .plain left right).mpr (.assoc .and _ _ _)⟩

end Expression

end CypherQuery
