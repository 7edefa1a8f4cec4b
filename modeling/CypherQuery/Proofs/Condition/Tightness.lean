import CypherQuery.Build.Condition
import CypherQuery.Proofs.Condition.Regrouping
import Mathlib.Order.Nat

/-! # How tightly operators bind

The query language ranks its operators by `Tightness`: a connective binds its operands more loosely
than a negation, a negation more loosely than a comparison, and so on up to the lookup of a
property. An operand fits its place if its own operator binds tightly enough for it, so that it
needs no parentheses. The predicate `Expression.Fits` says that all operands of an expression fit;
regrouping runs of one connective changes nothing about it (`Regroups.fits_iff`). The main
statement, `Expression.Built.fits_iff_careful`, is that all operands of an expression that the
operations compose fit exactly if properties are looked up in lookups and atoms only, and if no test
for a value is the second operand of a comparison of texts: these are the places that no operation
puts parentheses around. -/

namespace CypherQuery

/-- How tightly what is written last binds its operands, the loosest first; the order `≤` is that of
the constructors. -/
inductive Tightness where
  /-- A new name, which is no operand of anything. -/
  | naming
  /-- At least one condition holds. -/
  | or
  /-- Exactly one condition holds. -/
  | xor
  /-- Both conditions hold. -/
  | and
  /-- A condition does not hold. -/
  | not
  /-- A comparison by an order. -/
  | comparison
  /-- A comparison of texts, or a test for a value; they are grouped from the left. -/
  | test
  /-- The lookup of a property. -/
  | lookup
  /-- What has no operands beside it. -/
  | atom
  deriving DecidableEq, Repr

namespace Tightness

/-- The place in the order, by which `≤` is decided. -/
def rank : Tightness → Nat
  | naming => 0
  | or => 1
  | xor => 2
  | and => 3
  | not => 4
  | comparison => 5
  | test => 6
  | lookup => 7
  | atom => 8

/-- Different tightnesses have different places, by `rank`. -/
theorem rank_injective : Function.Injective rank := by
  intro l m same
  cases l <;> cases m <;> first | rfl | cases same

instance : PartialOrder Tightness := PartialOrder.lift rank rank_injective

instance (l m : Tightness) : Decidable (l ≤ m) := inferInstanceAs (Decidable (l.rank ≤ m.rank))

instance (l m : Tightness) : Decidable (l < m) := inferInstanceAs (Decidable (l.rank < m.rank))

end Tightness

/-- Nothing binds more tightly than an `atom`. -/
theorem Tightness.le_atom (l : Tightness) : l ≤ .atom := by
  cases l <;> decide

/-- How tightly a comparison binds: those of texts are a `test`, the others a `comparison`. -/
def Comparison.tightness : Comparison → Tightness
  | .startsWith | .endsWith | .contains | .matchesRegex => .test
  | .equal | .notEqual | .less | .lessOrEqual | .greater | .greaterOrEqual => .comparison

/-- How tightly a connective binds. -/
def Connective.tightness : Connective → Tightness
  | .or => .or
  | .xor => .xor
  | .and => .and

/-- How tightly an operator with one operand binds: negation is `not`, the others are a `test`. -/
def UnaryOperator.tightness : UnaryOperator → Tightness
  | .not => .not
  | .isNull | .isNotNull => .test

/-- Every comparison binds more tightly than a negation: it is at least a `comparison`. -/
theorem Comparison.le_tightness (op : Comparison) : .comparison ≤ op.tightness := by
  cases op <;> decide

/-- Every connective binds at least as tightly as `or`, the loosest one. -/
theorem Connective.or_le (op : Connective) : .or ≤ op.tightness := by
  cases op <;> decide

/-- Every connective binds more loosely than a negation, `not`. -/
theorem Connective.lt_not (op : Connective) : op.tightness < .not := by
  cases op <;> decide

/-- Different connectives bind differently: `Connective.tightness` is injective. -/
theorem Connective.tightness_injective : Function.Injective Connective.tightness := by
  intro op other same
  cases op <;> cases other <;> first | rfl | cases same

/-- Every operator with one operand binds at least as tightly as a negation, `not`. -/
theorem UnaryOperator.not_le (op : UnaryOperator) : .not ≤ op.tightness := by
  cases op <;> decide

/-- Every operator with one operand binds at most as tightly as a `test` for a value. -/
theorem UnaryOperator.le_test (op : UnaryOperator) : op.tightness ≤ .test := by
  cases op <;> decide

namespace Expression

/-- How tightly the operator of an expression binds; literals, references, calls and parentheses are
an `atom`. -/
def tightness : Expression → Tightness
  | .literal _ | .parameter _ | .variable _ | .asterisk | .call _ _ _ | .nested _ => .atom
  | .property _ _ => .lookup
  | .comparison op _ _ => op.tightness
  | .logical op _ _ => op.tightness
  | .unary op _ => op.tightness
  | .aliased _ _ => .naming

/-- The operands of an expression, each with how tightly it must bind at least in its place. Of the
operands of a connective, those of the same connective need not bind more tightly. -/
def operands : Expression → List (Tightness × Expression)
  | .literal _ | .parameter _ | .variable _ | .asterisk => []
  | .property subject _ => [(.lookup, subject)]
  | .call _ _ arguments => arguments.map fun argument => (.or, argument)
  | .comparison op left right =>
      [(.test, left), (if op.tightness = .test then .lookup else .test, right)]
  | .logical op left right => [(op.tightness, left), (op.tightness, right)]
  | .unary op operand => [(op.tightness, operand)]
  | .nested inner | .aliased inner _ => [(.or, inner)]

/-- All `operands` bind tightly enough for their places, and so do those in them. -/
inductive Fits : Expression → Prop where
  /-- The operands fit. -/
  | intro {e : Expression} (tight : ∀ operand ∈ e.operands, operand.1 ≤ operand.2.tightness)
      (inside : ∀ operand ∈ e.operands, Fits operand.2) : Fits e

/-- Properties are looked up in lookups and atoms only, and neither `isNull` nor `isNotNull` nor
`not` is outermost in the second operand of a comparison of texts: a condition on the places that no
operation groups. -/
inductive Careful : Expression → Prop where
  /-- The places that no operation puts parentheses around need none. -/
  | intro {e : Expression}
      (looks : ∀ subject key, e = .property subject key → .lookup ≤ subject.tightness)
      (compares : ∀ op left right, e = .comparison op left right → op.tightness = .test →
        ∀ test operand, right ≠ .unary test operand)
      (inside : ∀ operand ∈ e.operands, Careful operand.2) : Careful e

/-- The expressions that the operations compose, to any depth, of constants, references, the star,
calls and parentheses: one constructor for each operation of `Expression`. -/
inductive Built : Expression → Prop where
  /-- A constant. -/
  | literal (value : Literal) : Built (.literal value)
  /-- A reference to a parameter. -/
  | parameter (name : String) : Built (.parameter name)
  /-- A reference to a variable. -/
  | variable (name : String) : Built (.variable name)
  /-- The star. -/
  | asterisk : Built .asterisk
  /-- A call. -/
  | call (function : String) (distinct : Bool) {arguments : List Expression}
      (each : ∀ argument ∈ arguments, Built argument) : Built (.call function distinct arguments)
  /-- An expression in parentheses. -/
  | nested {inner : Expression} (built : Built inner) : Built (.nested inner)
  /-- The lookup of a property. -/
  | property {subject : Expression} (built : Built subject) (key : String) :
      Built (.property subject key)
  /-- A comparison. -/
  | compare (op : Comparison) {left right : Expression} (first : Built left)
      (second : Built right) : Built (compare op left right)
  /-- The condition that there is no value. -/
  | isNull {e : Expression} (built : Built e) : Built e.isNull
  /-- The condition that there is a value. -/
  | isNotNull {e : Expression} (built : Built e) : Built e.isNotNull
  /-- A negation. -/
  | negation {e : Expression} (built : Built e) : Built e.negation
  /-- A combination of two conditions. -/
  | combine (op : Connective) {left right : Expression} (first : Built left)
      (second : Built right) : Built (combine op left right)

/-! ## Operands that fit -/

/-- All operands fit, `Fits`, exactly if each one binds tightly enough and its own operands fit. -/
theorem fits_iff {e : Expression} :
    Fits e ↔ ∀ operand ∈ e.operands, operand.1 ≤ operand.2.tightness ∧ Fits operand.2 := by
  constructor
  · rintro ⟨tight, inside⟩ operand mem
    exact ⟨tight operand mem, inside operand mem⟩
  · intro each
    exact ⟨fun operand mem => (each operand mem).1, fun operand mem => (each operand mem).2⟩

/-- No place is that of a new name: every place in `operands` asks for at least `or`. -/
theorem or_le_of_mem_operands (e : Expression) : ∀ operand ∈ e.operands, .or ≤ operand.1 := by
  rcases e with _ | _ | _ | _ | _ | _ | ⟨op, _, _⟩ | ⟨op, _, _⟩ | ⟨op, _⟩ | _ | _
  case property => exact List.forall_mem_singleton.mpr (by decide : Tightness.or ≤ .lookup)
  case call => exact List.forall_mem_map.mpr fun _ _ => le_refl Tightness.or
  case comparison =>
    have second : .or ≤ if op.tightness = .test then Tightness.lookup else .test := by
      split <;> decide
    exact List.forall_mem_cons.mpr
      ⟨(by decide : Tightness.or ≤ .test), List.forall_mem_singleton.mpr second⟩
  case logical => exact List.forall_mem_cons.mpr ⟨op.or_le, List.forall_mem_singleton.mpr op.or_le⟩
  case unary => exact List.forall_mem_singleton.mpr (le_trans (by decide) op.not_le)
  case nested | aliased => exact List.forall_mem_singleton.mpr (le_refl Tightness.or)
  all_goals exact List.forall_mem_nil _

/-- The operand of a lookup, `property`, fits if it is a lookup or an atom. -/
theorem fits_property {subject : Expression} {key : String} :
    Fits (.property subject key) ↔ .lookup ≤ subject.tightness ∧ Fits subject := by
  rw [fits_iff, operands, List.forall_mem_singleton]

/-- The arguments of a `call` fit if they are expressions without a new name. -/
theorem fits_call {function : String} {distinct : Bool} {arguments : List Expression} :
    Fits (.call function distinct arguments) ↔
      ∀ argument ∈ arguments, .or ≤ argument.tightness ∧ Fits argument := by
  rw [fits_iff, operands, List.forall_mem_map]

/-- The operands of a `comparison` fit if they bind more tightly than one by an order, and the
second one more tightly than one of texts if it is of texts. -/
theorem fits_comparison {op : Comparison} {left right : Expression} :
    Fits (.comparison op left right) ↔ (.test ≤ left.tightness ∧ Fits left) ∧
      (if op.tightness = .test then .lookup else .test) ≤ right.tightness ∧ Fits right := by
  rw [fits_iff, operands, List.forall_mem_cons, List.forall_mem_singleton]

/-- The operands of a connective, `logical`, fit if they bind more tightly or are of this
connective. -/
theorem fits_logical {op : Connective} {left right : Expression} :
    Fits (.logical op left right) ↔ (op.tightness ≤ left.tightness ∧ Fits left) ∧
      op.tightness ≤ right.tightness ∧ Fits right := by
  rw [fits_iff, operands, List.forall_mem_cons, List.forall_mem_singleton]

/-- The operand of an operator with one operand, `unary`, fits if it binds as tightly. -/
theorem fits_unary {op : UnaryOperator} {operand : Expression} :
    Fits (.unary op operand) ↔ op.tightness ≤ operand.tightness ∧ Fits operand := by
  rw [fits_iff, operands, List.forall_mem_singleton]

/-- What stands in parentheses, `nested`, fits if it has no new name. -/
theorem fits_nested {inner : Expression} :
    Fits (.nested inner) ↔ .or ≤ inner.tightness ∧ Fits inner := by
  rw [fits_iff, operands, List.forall_mem_singleton]

/-- What has a new name, `aliased`, fits if it has no other one. -/
theorem fits_aliased {inner : Expression} {name : String} :
    Fits (.aliased inner name) ↔ .or ≤ inner.tightness ∧ Fits inner := by
  rw [fits_iff, operands, List.forall_mem_singleton]

/-! ## Grouping runs anew -/

/-- Expressions that differ in the grouping of runs only, `Regroups`, bind equally tightly, and
their operands fit alike. -/
theorem Regroups.fits_iff {e other : Expression} (regroups : Regroups e other) :
    e.tightness = other.tightness ∧ (Fits e ↔ Fits other) := by
  induction regroups with
  | refl e => exact ⟨rfl, Iff.rfl⟩
  | symm _ ih => exact ⟨ih.1.symm, ih.2.symm⟩
  | trans _ _ ih ih' => exact ⟨ih.1.trans ih'.1, ih.2.trans ih'.2⟩
  | assoc op first second third =>
      refine ⟨rfl, ?_⟩
      have own (left right : Expression) :
          op.tightness ≤ (Expression.logical op left right).tightness := le_refl op.tightness
      simp only [fits_logical, own, true_and]
      exact and_assoc
  | property key _ ih =>
      refine ⟨rfl, ?_⟩
      rw [fits_property, fits_property, ih.1, ih.2]
  | argument function distinct before after _ ih =>
      refine ⟨rfl, ?_⟩
      rw [fits_call, fits_call]
      simp only [List.forall_mem_append, List.forall_mem_cons, ih.1, ih.2]
  | comparison op _ _ ih ih' =>
      refine ⟨rfl, ?_⟩
      rw [fits_comparison, fits_comparison, ih.1, ih.2, ih'.1, ih'.2]
  | logical op _ _ ih ih' =>
      refine ⟨rfl, ?_⟩
      rw [fits_logical, fits_logical, ih.1, ih.2, ih'.1, ih'.2]
  | unary op _ ih =>
      refine ⟨rfl, ?_⟩
      rw [fits_unary, fits_unary, ih.1, ih.2]
  | nested _ ih =>
      refine ⟨rfl, ?_⟩
      rw [fits_nested, fits_nested, ih.1, ih.2]
  | aliased name _ ih =>
      refine ⟨rfl, ?_⟩
      rw [fits_aliased, fits_aliased, ih.1, ih.2]

/-! ## Composed expressions -/

/-- Expressions that are `Careful` have careful operands. -/
theorem Careful.operand {e : Expression} (careful : Careful e) {operand : Tightness × Expression}
    (mem : operand ∈ e.operands) : Careful operand.2 := by
  obtain ⟨-, -, inside⟩ := careful
  exact inside operand mem

/-- Expressions whose operands fit are `Careful`. -/
theorem Fits.careful {e : Expression} (fits : Fits e) : Careful e := by
  induction fits with
  | @intro e tight _ ih =>
      refine ⟨?_, ?_, ih⟩
      · rintro subject key rfl
        exact tight (.lookup, subject) List.mem_cons_self
      · rintro op left right rfl texts test operand rfl
        have strong : (if op.tightness = .test then .lookup else .test) ≤ test.tightness :=
          tight _ (List.mem_cons_of_mem _ List.mem_cons_self)
        rw [if_pos texts] at strong
        exact absurd (le_trans strong test.le_test) (by decide)

/-- An expression stands in a place as it is if it binds at least as tightly as `least`, and
otherwise in parentheses, `nested`. -/
def Placed (least : Tightness) (e placed : Expression) : Prop :=
  placed = .nested e ∨ placed = e ∧ least ≤ e.tightness

/-- What has been placed, `Placed`, binds tightly enough, and its operands fit if those of the
expression do. -/
theorem Placed.fits {least : Tightness} {e placed : Expression} (place : Placed least e placed)
    (unnamed : .or ≤ e.tightness) (fits : Fits e) : least ≤ placed.tightness ∧ Fits placed := by
  rcases place with rfl | ⟨rfl, tight⟩
  · exact ⟨Tightness.le_atom _, fits_nested.mpr ⟨unnamed, fits⟩⟩
  · exact ⟨tight, fits⟩

/-- What has been placed, `Placed`, is careful only if the expression is. -/
theorem Placed.careful {least : Tightness} {e placed : Expression} (place : Placed least e placed)
    (careful : Careful placed) : Careful e := by
  rcases place with rfl | ⟨rfl, -⟩
  · exact careful.operand (show (.or, e) ∈ (nested e).operands from List.mem_cons_self)
  · exact careful

/-- A `negation` is that of the expression in its place. -/
theorem exists_negation (e : Expression) (unnamed : .or ≤ e.tightness) :
    ∃ placed, e.negation = .unary .not placed ∧ Placed .not e placed := by
  rcases e with _ | _ | _ | _ | _ | _ | ⟨op, _, _⟩ | _ | ⟨op, _⟩ | _ | _
  case property => exact ⟨_, rfl, .inr ⟨rfl, (by decide : Tightness.not ≤ .lookup)⟩⟩
  case comparison => exact ⟨_, rfl, .inr ⟨rfl, le_trans (by decide) op.le_tightness⟩⟩
  case logical => exact ⟨_, rfl, .inl rfl⟩
  case unary => exact ⟨_, rfl, .inr ⟨rfl, op.not_le⟩⟩
  case aliased => exact absurd unnamed (by decide : ¬Tightness.or ≤ .naming)
  all_goals exact ⟨_, rfl, .inr ⟨rfl, Tightness.le_atom _⟩⟩

/-- Composed expressions, `Built`, have no new name. -/
theorem Built.or_le {e : Expression} (built : Built e) : .or ≤ e.tightness := by
  have above {l : Tightness} (negation : .not ≤ l) : .or ≤ l := le_trans (by decide) negation
  induction built with
  | literal _ | parameter _ | «variable» _ | asterisk | call _ _ _ _ | nested _ _ =>
      exact Tightness.le_atom _
  | property _ _ _ => exact above (by decide : Tightness.not ≤ .lookup)
  | compare op _ _ _ _ => exact above (le_trans (by decide) op.le_tightness)
  | isNull _ _ | isNotNull _ _ => exact above (by decide : Tightness.not ≤ .test)
  | @negation e _ ih =>
      obtain ⟨placed, same, -⟩ := e.exists_negation ih
      rw [same]
      exact above (le_refl Tightness.not)
  | combine op _ _ _ _ => exact op.or_le

/-- An expression is `grouped` for a comparison so that it binds more tightly than one by an order:
a `test` at least. -/
theorem Built.placed_grouped {e : Expression} (built : Built e) : Placed .test e e.grouped := by
  have unnamed := built.or_le
  rcases e with _ | _ | _ | _ | _ | _ | _ | _ | ⟨_ | _ | _, _⟩ | _ | _
  case aliased => exact absurd unnamed (by decide : ¬Tightness.or ≤ .naming)
  case comparison | logical | unary.not => exact .inl rfl
  case property => exact .inr ⟨rfl, (by decide : Tightness.test ≤ .lookup)⟩
  case unary.isNull | unary.isNotNull => exact .inr ⟨rfl, le_refl Tightness.test⟩
  all_goals exact .inr ⟨rfl, Tightness.le_atom _⟩

/-- An expression that is `grouped` for a comparison binds more tightly than one of texts, unless it
is a test for a value, which is left as it is. -/
theorem Built.lookup_le_grouped {e : Expression} (built : Built e)
    (other : ∀ test operand, e.grouped ≠ .unary test operand) : .lookup ≤ e.grouped.tightness := by
  have unnamed := built.or_le
  rcases e with _ | _ | _ | _ | _ | _ | _ | _ | ⟨_ | _ | _, _⟩ | _ | _
  case aliased => exact absurd unnamed (by decide : ¬Tightness.or ≤ .naming)
  case unary.isNull | unary.isNotNull => exact absurd rfl (other _ _)
  case property => exact le_refl Tightness.lookup
  all_goals exact Tightness.le_atom _

/-- An expression is `groupedIn` a connective so that it binds more tightly or is of it. -/
theorem Built.placed_groupedIn {e : Expression} (built : Built e) (op : Connective) :
    Placed op.tightness e (e.groupedIn op) := by
  have unnamed := built.or_le
  have above {l : Tightness} (negation : .not ≤ l) : op.tightness ≤ l :=
    le_trans (le_of_lt op.lt_not) negation
  rcases e with _ | _ | _ | _ | _ | _ | ⟨comparison, _, _⟩ | ⟨own, _, _⟩ | ⟨test, _⟩ | _ | _
  case aliased => exact absurd unnamed (by decide : ¬Tightness.or ≤ .naming)
  case property => exact .inr ⟨rfl, above (by decide : Tightness.not ≤ .lookup)⟩
  case comparison => exact .inr ⟨rfl, above (le_trans (by decide) comparison.le_tightness)⟩
  case unary => exact .inr ⟨rfl, above test.not_le⟩
  case logical =>
    by_cases same : own = op
    · exact .inr ⟨if_pos same, le_of_eq (congrArg Connective.tightness same.symm)⟩
    · exact .inl (if_neg same)
  all_goals exact .inr ⟨rfl, Tightness.le_atom _⟩

/-- All operands of a composed expression fit if it is `Careful`. -/
theorem Built.fits {e : Expression} (built : Built e) (careful : Careful e) : Fits e := by
  induction built with
  | literal _ | parameter _ | «variable» _ | asterisk => exact fits_iff.mpr (List.forall_mem_nil _)
  | call function distinct each ih =>
      refine fits_call.mpr fun argument mem => ⟨(each argument mem).or_le, ih argument mem ?_⟩
      have among : (Tightness.or, argument) ∈ (Expression.call function distinct _).operands :=
        List.mem_map_of_mem mem
      exact careful.operand among
  | nested inner ih =>
      exact fits_nested.mpr ⟨inner.or_le, ih (careful.operand List.mem_cons_self)⟩
  | property subject key ih =>
      obtain ⟨looks, -, -⟩ := id careful
      exact fits_property.mpr ⟨looks _ _ rfl, ih (careful.operand List.mem_cons_self)⟩
  | @compare op left right first second ih ih' =>
      have firstPlace := first.placed_grouped
      have secondPlace := second.placed_grouped
      have leftFits := firstPlace.fits first.or_le
        (ih (firstPlace.careful (careful.operand List.mem_cons_self)))
      have rightFits := secondPlace.fits second.or_le
        (ih' (secondPlace.careful (careful.operand (List.mem_cons_of_mem _ List.mem_cons_self))))
      refine fits_comparison.mpr ⟨leftFits, ?_, rightFits.2⟩
      by_cases texts : op.tightness = .test
      · obtain ⟨-, compares, -⟩ := careful
        rw [if_pos texts]
        exact second.lookup_le_grouped (compares op _ _ rfl texts)
      · rw [if_neg texts]
        exact rightFits.1
  | isNull inner ih | isNotNull inner ih =>
      have inside := careful.operand List.mem_cons_self
      exact fits_unary.mpr
        (inner.placed_grouped.fits inner.or_le (ih (inner.placed_grouped.careful inside)))
  | @negation e inner ih =>
      obtain ⟨placed, same, place⟩ := e.exists_negation inner.or_le
      rw [same] at careful ⊢
      have inside := careful.operand List.mem_cons_self
      exact fits_unary.mpr (place.fits inner.or_le (ih (place.careful inside)))
  | combine op first second ih ih' =>
      have firstPlace := first.placed_groupedIn op
      have secondPlace := second.placed_groupedIn op
      have leftCareful := firstPlace.careful (careful.operand List.mem_cons_self)
      have rightCareful :=
        secondPlace.careful (careful.operand (List.mem_cons_of_mem _ List.mem_cons_self))
      exact fits_logical.mpr ⟨firstPlace.fits first.or_le (ih leftCareful),
        secondPlace.fits second.or_le (ih' rightCareful)⟩

/-- All operands of a composed expression fit, `Fits`, exactly if it is `Careful`. -/
theorem Built.fits_iff_careful {e : Expression} (built : Built e) : Fits e ↔ Careful e :=
  ⟨Fits.careful, built.fits⟩

end Expression

end CypherQuery
