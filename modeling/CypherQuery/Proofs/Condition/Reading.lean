import CypherQuery.Build.Condition
import CypherQuery.Proofs.Condition.Regrouping
import CypherQuery.Proofs.Condition.Symbols

/-! # Reading conditions

How the symbols of a condition are read, `Reads`. Keys and tests for missing values bind most
strongly, a comparison has two operands, a negation takes a whole comparison, and connectives are
read from the right. What is read is determined by the symbols (`Reads.unique`). An expression is
`Readable` if its symbols are read as the expression with all runs grouped from the right; the
operations that put parentheses around an operand lead from readable expressions to readable ones
(`Readable.grouped`, `Readable.groupedIn`, `Readable.negation`). -/

namespace CypherQuery

namespace Symbol

/-- How strongly a symbol binds the operand before it, from zero for a symbol that binds none. -/
def strength : Symbol → Nat
  | .key _ | .operator (.unary .isNull) | .operator (.unary .isNotNull) => 3
  | .operator (.comparison _) => 2
  | .operator (.logical _) => 1
  | _ => 0

/-- The operand that a symbol is on its own: a constant, a reference or the star. -/
def operand? : Symbol → Option Expression
  | .literal value => some (.literal value)
  | .parameter name => some (.parameter name)
  | .variable name => some (.variable name)
  | .asterisk => some .asterisk
  | _ => none

end Symbol

/-- What follows binds the operand before it less strongly than `strength`, or there is nothing. -/
def Looser (strength : Nat) (rest : List Symbol) : Prop :=
  ∀ symbol ∈ rest.head?, symbol.strength < strength

/-- A symbol whose `strength` is less may follow: `Looser` looks at the first symbol only. -/
theorem looser_cons {strength : Nat} {symbol : Symbol} (weak : symbol.strength < strength)
    (rest : List Symbol) : Looser strength (symbol :: rest) := by
  intro other head
  cases head
  exact weak

/-- What is `Looser` than one strength is so than every greater one. -/
theorem Looser.mono {strength more : Nat} {rest : List Symbol} (looser : Looser strength rest)
    (atLeast : strength ≤ more) : Looser more rest :=
  fun symbol head => Nat.lt_of_lt_of_le (looser symbol head) atLeast

/-! ## Reading -/

/-- What is being read: the levels of a condition, the strongest first. -/
inductive Level where
  /-- An operand with everything that binds it most strongly. -/
  | operand
  /-- What binds an operand that has been read most strongly. -/
  | behind (e : Expression)
  /-- A comparison, an operand alone, or the negation of either. -/
  | unit
  /-- A whole condition. -/
  | condition

/-- At a level, the symbols are read as an expression, up to some rest: one rule for each way to go
on. -/
inductive Reads : Level → List Symbol → Expression → List Symbol → Prop where
  /-- An operand of one symbol. -/
  | word {symbol : Symbol} {e result : Expression} {rest further : List Symbol}
      (alone : symbol.operand? = some e) (behind : Reads (.behind e) rest result further) :
      Reads .operand (symbol :: rest) result further
  /-- An expression in parentheses. -/
  | nested {inner result : Expression} {rest between further : List Symbol}
      (inside : Reads .condition rest inner (.closing :: between))
      (behind : Reads (.behind (.nested inner)) between result further) :
      Reads .operand (.opening :: rest) result further
  /-- A call. -/
  | call {function : String} {argument result : Expression} {rest between further : List Symbol}
      (inside : Reads .condition rest argument (.closing :: between))
      (behind : Reads (.behind (.call function false [argument])) between result further) :
      Reads .operand (.function function :: rest) result further
  /-- A call that leaves out equal values. -/
  | callDistinct {function : String} {argument result : Expression}
      {rest between further : List Symbol}
      (inside : Reads .condition rest argument (.closing :: between))
      (behind : Reads (.behind (.call function true [argument])) between result further) :
      Reads .operand (.function function :: .distinct :: rest) result further
  /-- A key of the operand. -/
  | key {name : String} {e result : Expression} {rest further : List Symbol}
      (behind : Reads (.behind (.property e name)) rest result further) :
      Reads (.behind e) (.key name :: rest) result further
  /-- A test of the operand. -/
  | test {op : UnaryOperator} {e result : Expression} {rest further : List Symbol}
      (suffix : op.precedesOperand = false)
      (behind : Reads (.behind (.unary op e)) rest result further) :
      Reads (.behind e) (.operator (.unary op) :: rest) result further
  /-- The end of the operand. -/
  | stop {e : Expression} {rest : List Symbol} (ends : Looser 3 rest) :
      Reads (.behind e) rest e rest
  /-- A negation. -/
  | negation {e : Expression} {rest further : List Symbol} (inside : Reads .unit rest e further) :
      Reads .unit (.operator (.unary .not) :: rest) (.unary .not e) further
  /-- An operand alone. -/
  | operand {e : Expression} {input rest : List Symbol} (own : Reads .operand input e rest)
      (ends : Looser 2 rest) : Reads .unit input e rest
  /-- A comparison. -/
  | comparison {op : Comparison} {left right : Expression} {input between rest : List Symbol}
      (first : Reads .operand input left (.operator (.comparison op) :: between))
      (second : Reads .operand between right rest) :
      Reads .unit input (.comparison op left right) rest
  /-- A condition without a connective. -/
  | unit {e : Expression} {input rest : List Symbol} (own : Reads .unit input e rest)
      (ends : Looser 1 rest) : Reads .condition input e rest
  /-- A condition with a connective behind its first part. -/
  | logical {op : Connective} {left right : Expression} {input between rest : List Symbol}
      (first : Reads .unit input left (.operator (.logical op) :: between))
      (second : Reads .condition between right rest) :
      Reads .condition input (.logical op left right) rest

namespace Reads

/-- No operand starts with an `operator`. -/
theorem not_operator {op : Operator} {rest further : List Symbol} {e : Expression}
    (reads : Reads .operand (.operator op :: rest) e further) : False := by
  cases reads with
  | word alone _ => cases alone

/-- No condition starts with `distinct`, the word that leaves out equal values. -/
theorem not_distinct {rest further : List Symbol} {e : Expression}
    (reads : Reads .condition (.distinct :: rest) e further) : False := by
  have operand {result : Expression} {behind : List Symbol}
      (own : Reads .operand (.distinct :: rest) result behind) : False := by
    cases own with
    | word alone _ => cases alone
  have unit {result : Expression} {behind : List Symbol}
      (own : Reads .unit (.distinct :: rest) result behind) : False := by
    cases own with
    | operand own _ => exact operand own
    | comparison first _ => exact operand first
  cases reads with
  | unit own _ => exact unit own
  | logical first _ => exact unit first

/-- At each level, the symbols determine what is read and where the rest begins: `Reads` is
functional in both. This is by induction on the first derivation, with cases on the second. -/
theorem unique {level : Level} {input rest : List Symbol} {e : Expression}
    (reads : Reads level input e rest) {other : Expression} {otherRest : List Symbol}
    (second : Reads level input other otherRest) : e = other ∧ rest = otherRest := by
  -- Each rule but the ends of runs is chosen by the first symbol.
  induction reads generalizing other otherRest with
  | word alone _ ih =>
      cases second with
      | word alone' behind =>
          rw [alone] at alone'
          cases alone'
          exact ih behind
      | nested _ _ | call _ _ | callDistinct _ _ => cases alone
  | nested _ _ ih ih' =>
      cases second with
      | word alone _ => cases alone
      | nested inside behind =>
          obtain ⟨rfl, same⟩ := ih inside
          cases same
          exact ih' behind
  | call inside _ ih ih' =>
      cases second with
      | word alone _ => cases alone
      | call inside' behind =>
          obtain ⟨rfl, same⟩ := ih inside'
          cases same
          exact ih' behind
      | callDistinct _ _ => exact absurd inside not_distinct
  | callDistinct _ _ ih ih' =>
      cases second with
      | word alone _ => cases alone
      | call inside _ => exact absurd inside not_distinct
      | callDistinct inside behind =>
          obtain ⟨rfl, same⟩ := ih inside
          cases same
          exact ih' behind
  | key _ ih =>
      cases second with
      | key behind => exact ih behind
      | stop ends => exact absurd (ends _ rfl) (Nat.lt_irrefl 3)
  | @test op _ _ _ _ suffix _ ih =>
      cases second with
      | test _ behind => exact ih behind
      | stop ends =>
          have strong := ends _ rfl
          cases op with
          | not => cases suffix
          | isNull | isNotNull => exact absurd strong (by decide)
  | stop ends =>
      cases second with
      | key _ => exact absurd (ends _ rfl) (Nat.lt_irrefl 3)
      | @test op _ _ _ _ suffix _ =>
          have strong := ends _ rfl
          cases op with
          | not => cases suffix
          | isNull | isNotNull => exact absurd strong (by decide)
      | stop _ => exact ⟨rfl, rfl⟩
  | negation _ ih =>
      cases second with
      | negation inside =>
          obtain ⟨rfl, rfl⟩ := ih inside
          exact ⟨rfl, rfl⟩
      | operand own _ => exact absurd own not_operator
      | comparison first _ => exact absurd first not_operator
  | operand own ends ih =>
      cases second with
      | negation _ => exact absurd own not_operator
      | operand own' _ => exact ih own'
      | comparison first _ =>
          obtain ⟨-, rfl⟩ := ih first
          exact absurd (ends _ rfl) (Nat.lt_irrefl 2)
  | comparison first _ ih ih' =>
      cases second with
      | negation _ => exact absurd first not_operator
      | operand own ends =>
          obtain ⟨-, rfl⟩ := ih own
          exact absurd (ends _ rfl) (Nat.lt_irrefl 2)
      | comparison first' second' =>
          obtain ⟨rfl, same⟩ := ih first'
          cases same
          obtain ⟨rfl, rfl⟩ := ih' second'
          exact ⟨rfl, rfl⟩
  | unit _ ends ih =>
      cases second with
      | unit own' _ => exact ih own'
      | logical first _ =>
          obtain ⟨-, rfl⟩ := ih first
          exact absurd (ends _ rfl) (Nat.lt_irrefl 1)
  | logical _ _ ih ih' =>
      cases second with
      | unit own ends =>
          obtain ⟨-, rfl⟩ := ih own
          exact absurd (ends _ rfl) (Nat.lt_irrefl 1)
      | logical first' second' =>
          obtain ⟨rfl, same⟩ := ih first'
          cases same
          obtain ⟨rfl, rfl⟩ := ih' second'
          exact ⟨rfl, rfl⟩

end Reads

/-! ## Readable expressions -/

namespace Expression

/-- Whether an expression is an operand: neither a comparison, a negation nor a combination is
outermost in it. -/
def isOperand : Expression → Bool
  | .logical _ _ _ | .comparison _ _ _ | .unary .not _ => false
  | _ => true

/-- Whether an expression combines two conditions: it is `logical`. -/
def isCombination : Expression → Bool
  | .logical _ _ _ => true
  | _ => false

/-- The symbols of an expression are read as the expression with all runs grouped from the right,
`regrouped`, at each level to which the expression belongs. -/
structure Readable (e : Expression) : Prop where
  /-- An operand is read in front of what binds it most strongly. -/
  operand : e.isOperand = true → ∀ {rest further : List Symbol} {result : Expression},
    Reads (.behind e.regrouped) rest result further →
    Reads .operand (e.symbols ++ rest) result further
  /-- A condition without a connective is read in front of a connective. -/
  unit : e.isCombination = false → ∀ {rest : List Symbol}, Looser 2 rest →
    Reads .unit (e.symbols ++ rest) e.regrouped rest
  /-- A run of a connective is continued by what is read behind that connective. -/
  run : ∀ {op : Connective} {rest further : List Symbol} {right : Expression},
    (e.isCombination = true → e.isLogical op = true) → Reads .condition rest right further →
    Reads .condition (e.symbols ++ .operator (.logical op) :: rest) (joined op e.regrouped right)
      further
  /-- The whole condition is read in front of what ends it. -/
  condition : ∀ {rest : List Symbol}, Looser 1 rest →
    Reads .condition (e.symbols ++ rest) e.regrouped rest

/-- Grouping anew, by `regrouped`, makes no combination of anything else. -/
theorem isLogical_regrouped {e : Expression} (other : e.isCombination = false) (op : Connective) :
    e.regrouped.isLogical op = false := by
  rcases e with _ | _ | _ | _ | _ | _ | _ | _ | _ | _ | _
  case logical => cases other
  all_goals rfl

namespace Readable

/-- An expression without a connective is `Readable` if it is read at the level `unit`. -/
theorem of_unit {e : Expression} (single : e.isCombination = false)
    (operand : e.isOperand = true → ∀ {rest further : List Symbol} {result : Expression},
      Reads (.behind e.regrouped) rest result further →
      Reads .operand (e.symbols ++ rest) result further)
    (unit : ∀ {rest : List Symbol}, Looser 2 rest →
      Reads .unit (e.symbols ++ rest) e.regrouped rest) : e.Readable where
  operand := operand
  unit _ _ looser := unit looser
  run _ second := by
    rw [joined_other (isLogical_regrouped single _)]
    exact .logical (unit (looser_cons Nat.one_lt_two _)) second
  condition looser := .unit (unit (looser.mono (by decide))) looser

/-- An operand is `Readable` if it is read at the level `operand`. -/
theorem of_operand {e : Expression} (own : e.isOperand = true)
    (operand : ∀ {rest further : List Symbol} {result : Expression},
      Reads (.behind e.regrouped) rest result further →
      Reads .operand (e.symbols ++ rest) result further) : e.Readable := by
  have single : e.isCombination = false := by
    rcases e with _ | _ | _ | _ | _ | _ | _ | _ | _ | _ | _
    case logical => cases own
    all_goals rfl
  exact of_unit single (fun _ => operand) fun looser =>
    .operand (operand (.stop (looser.mono (by decide)))) looser

/-- An operand of one symbol is `Readable`. -/
theorem of_symbol {e : Expression} {symbol : Symbol} (own : e.isOperand = true)
    (symbols : e.symbols = [symbol]) (alone : symbol.operand? = some e.regrouped) : e.Readable :=
  of_operand own fun behind => by
    rw [symbols]
    exact .word alone behind

/-- A property of a `Readable` operand is readable. -/
theorem property {subject : Expression} (readable : subject.Readable)
    (own : subject.isOperand = true) (key : String) : (Expression.property subject key).Readable :=
  of_operand rfl fun behind => by
    rw [symbols, List.append_assoc]
    exact readable.operand own (.key behind)

/-- A `Readable` expression in parentheses is readable, as an operand. -/
theorem nested {inner : Expression} (readable : inner.Readable) :
    (Expression.nested inner).Readable :=
  of_operand rfl fun behind => by
    rw [symbols, List.cons_append, List.append_assoc]
    exact .nested (readable.condition (looser_cons (by decide) _)) behind

/-- A call with a `Readable` argument is readable. -/
theorem call {argument : Expression} (readable : argument.Readable) (function : String)
    (distinct : Bool) : (Expression.call function distinct [argument]).Readable :=
  of_operand rfl fun {rest} _ _ behind => by
    have closed : Looser 1 (.closing :: rest) := looser_cons (by decide) rest
    have inside := readable.condition closed
    rw [symbols, List.cons_append, List.append_assoc, List.append_assoc]
    rcases distinct with _ | _
    · exact .call inside behind
    · exact .callDistinct inside behind

/-- A comparison of two `Readable` operands is readable. -/
theorem comparison {left right : Expression} (first : left.Readable) (second : right.Readable)
    (own : left.isOperand = true) (otherOwn : right.isOperand = true) (op : Comparison) :
    (Expression.comparison op left right).Readable :=
  of_unit rfl (fun operand => absurd operand Bool.false_ne_true) fun looser => by
    rw [symbols, List.append_assoc]
    exact .comparison (first.operand own (.stop (looser_cons (Nat.lt_succ_self 2) _)))
      (second.operand otherOwn (.stop (looser.mono (by decide))))

/-- A test of a `Readable` operand is readable. -/
theorem test {operand : Expression} (readable : operand.Readable)
    (own : operand.isOperand = true) {op : UnaryOperator} (suffix : op.precedesOperand = false) :
    (Expression.unary op operand).Readable := by
  refine of_operand ?_ fun behind => ?_
  · cases op with
    | not => cases suffix
    | isNull | isNotNull => rfl
  · rw [symbols, suffix, if_neg Bool.false_ne_true, List.append_assoc]
    exact readable.operand own (.test suffix behind)

/-- The negation of a `Readable` expression without a connective is readable. -/
theorem not {operand : Expression} (readable : operand.Readable)
    (single : operand.isCombination = false) : (Expression.unary .not operand).Readable :=
  of_unit rfl (fun operand => absurd operand Bool.false_ne_true) fun looser =>
    .negation (readable.unit single looser)

/-- Two `Readable` conditions under a connective are readable, if neither combines conditions by
another one. -/
theorem logical {left right : Expression} {op : Connective} (first : left.Readable)
    (second : right.Readable) (own : left.isCombination = true → left.isLogical op = true)
    (otherOwn : right.isCombination = true → right.isLogical op = true) :
    (Expression.logical op left right).Readable where
  operand operand := absurd operand Bool.false_ne_true
  unit single := absurd single.symm Bool.false_ne_true
  run {other rest further result} run behind := by
    obtain rfl : op = other := by
      have same := run rfl
      rwa [isLogical, beq_iff_eq] at same
    -- The run of the second condition is continued first, and then that of the first one.
    rw [symbols, List.append_assoc, regrouped, joined_joined]
    exact first.run own (second.run otherOwn behind)
  condition looser := by
    rw [symbols, List.append_assoc]
    exact first.run own (second.condition looser)

/-- A `Readable` expression is readable where it is `grouped` for a comparison, and is an operand
there. -/
theorem grouped {e : Expression} (readable : e.Readable) :
    e.grouped.Readable ∧ e.grouped.isOperand = true := by
  by_cases own : e.isOperand = true
  · have same : e.grouped = e := by
      unfold Expression.grouped
      split
      · cases own
      · cases own
      · cases own
      · rfl
    rw [same]
    exact ⟨readable, own⟩
  · have same : e.grouped = .nested e := by
      unfold Expression.grouped
      split
      · rfl
      · rfl
      · rfl
      · next noLogical noComparison noNegation =>
          unfold isOperand at own
          split at own
          · exact absurd rfl (noLogical _ _ _)
          · exact absurd rfl (noComparison _ _ _)
          · exact absurd rfl (noNegation _)
          · exact absurd rfl own
    rw [same]
    exact ⟨readable.nested, rfl⟩

/-- A `Readable` expression is readable where it is `groupedIn` a connective, and combines
conditions by no other connective there. -/
theorem groupedIn {e : Expression} (readable : e.Readable) (op : Connective) :
    (e.groupedIn op).Readable ∧
      ((e.groupedIn op).isCombination = true → (e.groupedIn op).isLogical op = true) := by
  unfold Expression.groupedIn
  split
  · next own left right =>
      by_cases same : own = op
      · rw [if_pos same]
        exact ⟨readable, fun _ => beq_iff_eq.mpr same⟩
      · rw [if_neg same]
        exact ⟨readable.nested, fun combination => absurd combination Bool.false_ne_true⟩
  · next other =>
      refine ⟨readable, fun combination => ?_⟩
      unfold isCombination at combination
      split at combination
      · exact absurd rfl (other _ _ _)
      · cases combination

/-- The `negation` of a readable expression is readable. -/
theorem negation {e : Expression} (readable : e.Readable) : e.negation.Readable := by
  unfold Expression.negation
  split
  · exact readable.nested.not rfl
  · next other =>
      refine readable.not ?_
      unfold isCombination
      split
      · exact absurd rfl (other _ _ _)
      · rfl

end Readable

/-- Expressions that are `Readable` and have the same symbols differ in the grouping of runs only,
`Regroups`. -/
theorem regroups_of_symbols {e other : Expression} (readable : e.Readable)
    (otherReadable : other.Readable) (same : e.symbols = other.symbols) : Regroups e other := by
  have ends : Looser 1 [] := fun _ head => nomatch head
  have first := readable.condition ends
  have second := otherReadable.condition ends
  rw [← same] at second
  obtain ⟨regrouped, -⟩ := first.unique second
  have back := (regroups_regrouped other).symm
  rw [← regrouped] at back
  exact (regroups_regrouped e).trans back

end Expression

end CypherQuery
