import CypherQuery.Proofs.Condition.Reading
import CypherQuery.Proofs.Condition.Tightness

/-! # Reading by precedence

How the query language reads the symbols of an expression, `Reads`: what binds more tightly is read
first, and operators that bind equally tightly are grouped from the left if they are comparisons of
texts or tests, and from the right if they are connectives, whose runs may be grouped in any way.
What is read is determined by the symbols (`Reads.unique`), and all operands in it fit their places
(`Reads.fitting`). The main statement, `Expression.operands_fit_iff_careful`, is that a composed
expression is read from its text, up to the grouping of runs of one connective, exactly if its
operands fit. -/

namespace CypherQuery

/-- How tightly a symbol binds the operand before it; one that belongs to no operator is a
`naming`. -/
def Symbol.tightness : Symbol → Tightness
  | .key _ => .lookup
  | .operator (.comparison op) => op.tightness
  | .operator (.logical op) => op.tightness
  | .operator (.unary .isNull) | .operator (.unary .isNotNull) => .test
  | _ => .naming

/-- The level that is read first where operators of a level stand between operands: the next place
in the order. -/
def Tightness.next? : Tightness → Option Tightness
  | .or => some .xor
  | .xor => some .and
  | .and => some .not
  | .not => some .comparison
  | .comparison => some .test
  | .naming | .test | .lookup | .atom => none

namespace Precedence

open Expression

/-- What follows binds the operand before it more loosely than `l`, or there is nothing. -/
def Looser (l : Tightness) (rest : List Symbol) : Prop :=
  ∀ symbol ∈ rest.head?, symbol.tightness < l

/-- What is being read: a whole level, or what may follow at a level that is grouped from the
left. -/
inductive Stage where
  /-- An expression that binds as tightly. -/
  | level (l : Tightness)
  /-- The keys behind what has been read. -/
  | keys (e : Expression)
  /-- The comparisons of texts and the tests behind what has been read. -/
  | tests (e : Expression)
  /-- The arguments behind those that have been read. -/
  | arguments (function : String) (distinct : Bool) (done : List Expression)

/-- At a stage, the symbols are read as an expression, up to some rest. The stages `keys`, `tests`
and `arguments` hold what has been read before. -/
inductive Reads : Stage → List Symbol → Expression → List Symbol → Prop where
  /-- An operand of one symbol. -/
  | word {symbol : Symbol} {e result : Expression} {input rest : List Symbol}
      (alone : symbol.operand? = some e) (behind : Reads (.keys e) input result rest) :
      Reads (.level .lookup) (symbol :: input) result rest
  /-- An expression in parentheses. -/
  | nested {inner result : Expression} {input between rest : List Symbol}
      (inside : Reads (.level .or) input inner (.closing :: between))
      (behind : Reads (.keys (.nested inner)) between result rest) :
      Reads (.level .lookup) (.opening :: input) result rest
  /-- A call. -/
  | call {function : String} {result : Expression} {input rest : List Symbol}
      (inside : Reads (.arguments function false []) input result rest) :
      Reads (.level .lookup) (.function function :: input) result rest
  /-- A call that leaves out equal values. -/
  | callDistinct {function : String} {result : Expression} {input rest : List Symbol}
      (inside : Reads (.arguments function true []) input result rest) :
      Reads (.level .lookup) (.function function :: .distinct :: input) result rest
  /-- There are no arguments. -/
  | noArguments {function : String} {distinct : Bool} {result : Expression}
      {input rest : List Symbol}
      (behind : Reads (.keys (.call function distinct [])) input result rest) :
      Reads (.arguments function distinct []) (.closing :: input) result rest
  /-- The last argument. -/
  | lastArgument {function : String} {distinct : Bool} {done : List Expression}
      {argument result : Expression} {input between rest : List Symbol}
      (own : Reads (.level .or) input argument (.closing :: between))
      (behind : Reads (.keys (.call function distinct (done ++ [argument]))) between result rest) :
      Reads (.arguments function distinct done) input result rest
  /-- An argument with others behind it. -/
  | argument {function : String} {distinct : Bool} {done : List Expression}
      {argument result : Expression} {input between rest : List Symbol}
      (own : Reads (.level .or) input argument (.comma :: between))
      (others : Reads (.arguments function distinct (done ++ [argument])) between result rest) :
      Reads (.arguments function distinct done) input result rest
  /-- A key. -/
  | key {name : String} {e result : Expression} {input rest : List Symbol}
      (behind : Reads (.keys (.property e name)) input result rest) :
      Reads (.keys e) (.key name :: input) result rest
  /-- The end of the keys. -/
  | endKeys {e : Expression} {rest : List Symbol} (ends : Looser .lookup rest) :
      Reads (.keys e) rest e rest
  /-- A lookup with what tests it. -/
  | operand {e result : Expression} {input between rest : List Symbol}
      (own : Reads (.level .lookup) input e between)
      (behind : Reads (.tests e) between result rest) : Reads (.level .test) input result rest
  /-- A comparison of texts. -/
  | texts {op : Comparison} {e right result : Expression} {input between rest : List Symbol}
      (own : op.tightness = .test) (second : Reads (.level .lookup) input right between)
      (behind : Reads (.tests (.comparison op e right)) between result rest) :
      Reads (.tests e) (.operator (.comparison op) :: input) result rest
  /-- A test for a value. -/
  | test {op : UnaryOperator} {e result : Expression} {input rest : List Symbol}
      (suffix : op.precedesOperand = false)
      (behind : Reads (.tests (.unary op e)) input result rest) :
      Reads (.tests e) (.operator (.unary op) :: input) result rest
  /-- The end of the tests. -/
  | endTests {e : Expression} {rest : List Symbol} (ends : Looser .test rest) :
      Reads (.tests e) rest e rest
  /-- A comparison by an order. -/
  | comparison {op : Comparison} {left right : Expression} {input between rest : List Symbol}
      (own : op.tightness = .comparison)
      (first : Reads (.level .test) input left (.operator (.comparison op) :: between))
      (second : Reads (.level .test) between right rest) :
      Reads (.level .comparison) input (.comparison op left right) rest
  /-- A negation. -/
  | negation {e : Expression} {input rest : List Symbol}
      (inside : Reads (.level .not) input e rest) :
      Reads (.level .not) (.operator (.unary .not) :: input) (.unary .not e) rest
  /-- A run of a connective with more than one condition. -/
  | run {op : Connective} {l next : Tightness} {left right : Expression}
      {input between rest : List Symbol} (own : op.tightness = l) (above : l.next? = some next)
      (first : Reads (.level next) input left (.operator (.logical op) :: between))
      (second : Reads (.level l) between right rest) :
      Reads (.level l) input (.logical op left right) rest
  /-- An expression that binds more tightly. -/
  | single {l next : Tightness} {e : Expression} {input rest : List Symbol}
      (above : l.next? = some next) (own : Reads (.level next) input e rest)
      (ends : Looser l rest) : Reads (.level l) input e rest

/-! ## What may follow -/

/-- What binds more loosely may follow: `Looser` looks at the first symbol only. -/
theorem looser_cons {l : Tightness} {symbol : Symbol} (loose : symbol.tightness < l)
    (rest : List Symbol) : Looser l (symbol :: rest) := by
  intro other head
  cases head
  exact loose

/-- What is `Looser` than one tightness is so than every tighter one. -/
theorem Looser.mono {l m : Tightness} {rest : List Symbol} (looser : Looser l rest)
    (tighter : l ≤ m) : Looser m rest :=
  fun symbol head => lt_of_lt_of_le (looser symbol head) tighter

/-- A symbol that binds as tightly is not `Looser`. -/
theorem Looser.false {l : Tightness} {symbol : Symbol} {rest : List Symbol}
    (looser : Looser l (symbol :: rest)) (tight : l ≤ symbol.tightness) : False :=
  lt_irrefl _ (lt_of_lt_of_le (looser symbol rfl) tight)

/-! ## What is read is determined -/

/-- An expression that binds at least as tightly as `l` may start with a symbol. -/
def Starts (l : Tightness) : Symbol → Prop
  | .literal _ | .parameter _ | .variable _ | .asterisk | .function _ | .opening => True
  | .operator (.unary .not) => l ≤ .not
  | _ => False

/-- The next level, `next?`, has the next place. -/
theorem rank_of_next? {l next : Tightness} (above : l.next? = some next) :
    next.rank = l.rank + 1 := by
  cases l <;> cases above <;> rfl

/-- The next level, `next?`, binds more tightly. -/
theorem lt_of_next? {l next : Tightness} (above : l.next? = some next) : l < next := by
  show l.rank < next.rank
  rw [rank_of_next? above]
  exact Nat.lt_succ_self _

/-- A test, `precedesOperand` being false, stands behind its operand and binds as a `test`. -/
theorem tightness_of_suffix {op : UnaryOperator} (suffix : op.precedesOperand = false) :
    op.tightness = .test ∧ (Symbol.operator (.unary op)).tightness = .test := by
  cases op with
  | not => cases suffix
  | isNull | isNotNull => exact ⟨rfl, rfl⟩

/-- No connective binds as tightly as a negation: its `tightness` is below `.not`. -/
theorem connective_ne {l : Tightness} (tight : .not ≤ l) {op : Connective} : op.tightness ≠ l :=
  ne_of_lt (lt_of_lt_of_le op.lt_not tight)

/-- An operand of one symbol, `operand?`, starts every expression. -/
theorem starts_of_operand? {symbol : Symbol} {e : Expression} (alone : symbol.operand? = some e)
    (l : Tightness) : Starts l symbol := by
  cases symbol <;> trivial

/-- What starts an expression that binds more tightly starts one that binds more loosely: `Starts`
is antitone. -/
theorem Starts.mono {l m : Tightness} {symbol : Symbol} (starts : Starts m symbol)
    (looser : l ≤ m) : Starts l symbol := by
  unfold Starts at starts ⊢
  split at starts
  case h_7 => exact le_trans looser starts
  case h_8 => exact starts.elim
  all_goals trivial

namespace Reads

/-- What is read at a level starts with a symbol that `Starts` it. -/
theorem exists_starts {l : Tightness} {input rest : List Symbol} {e : Expression}
    (reads : Reads (.level l) input e rest) :
    ∃ symbol more, input = symbol :: more ∧ Starts l symbol := by
  generalize same : Stage.level l = stage at reads
  induction reads generalizing l with
  | word alone _ _ =>
      exact ⟨_, _, rfl, starts_of_operand? alone l⟩
  | nested _ _ _ _ | call _ _ | callDistinct _ _ => exact ⟨_, _, rfl, trivial⟩
  | operand _ _ ih _ | comparison _ _ _ ih _ =>
      cases same
      obtain ⟨symbol, more, begins, starts⟩ := ih rfl
      exact ⟨symbol, more, begins, starts.mono (by decide)⟩
  | negation _ _ =>
      cases same
      exact ⟨_, _, rfl, le_refl Tightness.not⟩
  | run _ above _ _ ih _ | single above _ _ ih =>
      cases same
      obtain ⟨symbol, more, begins, starts⟩ := ih rfl
      exact ⟨symbol, more, begins, starts.mono (le_of_lt (lt_of_next? above))⟩
  | _ => cases same

/-- At the level `l`, nothing is read that starts with a symbol outside `Starts l`. -/
theorem false_of_head {l : Tightness} {symbol : Symbol} {input rest : List Symbol} {e : Expression}
    (reads : Reads (.level l) (symbol :: input) e rest) (other : ¬Starts l symbol) : False := by
  obtain ⟨_, _, same, starts⟩ := reads.exists_starts
  cases same
  exact other starts

/-- No argument starts with the symbol `distinct`. -/
theorem not_distinct {function : String} {distinct : Bool} {done : List Expression}
    {input rest : List Symbol} {e : Expression}
    (reads : Reads (.arguments function distinct done) (.distinct :: input) e rest) : False := by
  cases reads with
  | lastArgument own _ | argument own _ => exact own.false_of_head id

/-- At each stage, the symbols determine what is read and where the rest begins: `Reads` is
functional in both. This is by induction on the first derivation, with cases on the second. -/
theorem unique {stage : Stage} {input rest : List Symbol} {e : Expression}
    (reads : Reads stage input e rest) {other : Expression} {otherRest : List Symbol}
    (second : Reads stage input other otherRest) : e = other ∧ rest = otherRest := by
  -- Each rule but the ends of runs is chosen by the first symbol.
  induction reads generalizing other otherRest with
  | word alone _ ih =>
      cases second with
      | word alone' behind =>
          rw [alone] at alone'
          cases alone'
          exact ih behind
      | nested _ _ | call _ | callDistinct _ => cases alone
      | single above _ _ => cases above
      | run _ above _ _ => cases above
  | nested _ _ ih ih' =>
      cases second with
      | word alone _ => cases alone
      | nested inside behind =>
          obtain ⟨rfl, same⟩ := ih inside
          cases same
          exact ih' behind
      | single above _ _ => cases above
      | run _ above _ _ => cases above
  | call inside ih =>
      cases second with
      | word alone _ => cases alone
      | call inside' => exact ih inside'
      | callDistinct _ => exact inside.not_distinct.elim
      | single above _ _ => cases above
      | run _ above _ _ => cases above
  | callDistinct inside ih =>
      cases second with
      | word alone _ => cases alone
      | call inside' => exact inside'.not_distinct.elim
      | callDistinct inside' => exact ih inside'
      | single above _ _ => cases above
      | run _ above _ _ => cases above
  | noArguments _ ih =>
      cases second with
      | noArguments behind => exact ih behind
      | lastArgument own _ | argument own _ => exact (own.false_of_head id).elim
  | lastArgument own _ ih ih' =>
      cases second with
      | noArguments _ => exact (own.false_of_head id).elim
      | lastArgument own' behind =>
          obtain ⟨rfl, same⟩ := ih own'
          cases same
          exact ih' behind
      | argument own' _ =>
          obtain ⟨-, same⟩ := ih own'
          cases same
  | argument own _ ih ih' =>
      cases second with
      | noArguments _ => exact (own.false_of_head id).elim
      | lastArgument own' _ =>
          obtain ⟨-, same⟩ := ih own'
          cases same
      | argument own' others =>
          obtain ⟨rfl, same⟩ := ih own'
          cases same
          exact ih' others
  | key _ ih =>
      cases second with
      | key behind => exact ih behind
      | endKeys ends => exact (ends.false (le_refl Tightness.lookup)).elim
  | endKeys ends =>
      cases second with
      | key _ => exact (ends.false (le_refl Tightness.lookup)).elim
      | endKeys _ => exact ⟨rfl, rfl⟩
  | operand _ _ ih ih' =>
      cases second with
      | operand own behind =>
          obtain ⟨rfl, rfl⟩ := ih own
          exact ih' behind
      | single above _ _ => cases above
      | run _ above _ _ => cases above
  | texts own _ _ ih ih' =>
      cases second with
      | texts _ second behind =>
          obtain ⟨rfl, rfl⟩ := ih second
          exact ih' behind
      | endTests ends => exact (ends.false (le_of_eq own.symm)).elim
  | test suffix _ ih =>
      cases second with
      | test _ behind => exact ih behind
      | endTests ends => exact (ends.false (le_of_eq (tightness_of_suffix suffix).2.symm)).elim
  | endTests ends =>
      cases second with
      | texts own _ _ => exact (ends.false (le_of_eq own.symm)).elim
      | test suffix _ => exact (ends.false (le_of_eq (tightness_of_suffix suffix).2.symm)).elim
      | endTests _ => exact ⟨rfl, rfl⟩
  | comparison own first _ ih ih' =>
      cases second with
      | comparison own' first' second' =>
          obtain ⟨rfl, same⟩ := ih first'
          cases same
          obtain ⟨rfl, rfl⟩ := ih' second'
          exact ⟨rfl, rfl⟩
      | single above own' ends =>
          cases above
          obtain ⟨-, rfl⟩ := ih own'
          exact (ends.false (le_of_eq own.symm)).elim
      | run own' _ _ _ => exact absurd own' (connective_ne (by decide))
  | negation _ ih =>
      cases second with
      | negation inside =>
          obtain ⟨rfl, rfl⟩ := ih inside
          exact ⟨rfl, rfl⟩
      | single above own _ =>
          cases above
          exact (own.false_of_head (by decide : ¬Tightness.comparison ≤ .not)).elim
      | run own' _ _ _ => exact absurd own' (connective_ne (by decide))
  | run own above first _ ih ih' =>
      cases second with
      | word _ _ | nested _ _ | call _ | callDistinct _ | operand _ _ => cases above
      | comparison _ _ _ | negation _ => exact absurd own (connective_ne (by decide))
      | run _ above' first' second' =>
          rw [above] at above'
          cases above'
          obtain ⟨rfl, same⟩ := ih first'
          cases same
          obtain ⟨rfl, rfl⟩ := ih' second'
          exact ⟨rfl, rfl⟩
      | single above' own' ends =>
          rw [above] at above'
          cases above'
          obtain ⟨-, rfl⟩ := ih own'
          exact (ends.false (le_of_eq own.symm)).elim
  | single above own ends ih =>
      cases second with
      | word _ _ | nested _ _ | call _ | callDistinct _ | operand _ _ => cases above
      | comparison own' first' _ =>
          cases above
          obtain ⟨-, rfl⟩ := ih first'
          exact (ends.false (le_of_eq own'.symm)).elim
      | negation _ =>
          cases above
          exact (own.false_of_head (by decide : ¬Tightness.comparison ≤ .not)).elim
      | run own' above' first' _ =>
          rw [above] at above'
          cases above'
          obtain ⟨-, rfl⟩ := ih first'
          exact (ends.false (le_of_eq own'.symm)).elim
      | single above' own' _ =>
          rw [above] at above'
          cases above'
          exact ih own'

end Reads

/-! ## What is read fits -/

/-- An expression fits a stage: it binds tightly enough and its operands fit, `Expression.Fits`,
given what has been read before. -/
def Stage.Fitting : Stage → Expression → Prop
  | level l, e => l ≤ e.tightness ∧ Fits e
  | keys before, e => .lookup ≤ before.tightness ∧ Fits before → .lookup ≤ e.tightness ∧ Fits e
  | tests before, e => .test ≤ before.tightness ∧ Fits before → .test ≤ e.tightness ∧ Fits e
  | arguments _ _ done, e =>
      (∀ argument ∈ done, .or ≤ argument.tightness ∧ Fits argument) →
        .lookup ≤ e.tightness ∧ Fits e

/-- What is read at a stage fits it, `Stage.Fitting`: one case for each rule. -/
theorem Reads.fitting {stage : Stage} {input rest : List Symbol} {e : Expression}
    (reads : Reads stage input e rest) : stage.Fitting e := by
  induction reads with
  | @word symbol e _ _ _ alone _ ih =>
      have atom : .lookup ≤ e.tightness ∧ Fits e := by
        cases symbol <;> cases alone <;>
          exact ⟨Tightness.le_atom _, fits_iff.mpr (List.forall_mem_nil _)⟩
      exact ih atom
  | nested _ _ ih ih' => exact ih' ⟨Tightness.le_atom _, fits_nested.mpr ih⟩
  | call _ ih | callDistinct _ ih => exact ih (List.forall_mem_nil _)
  | noArguments _ ih =>
      exact fun _ => ih ⟨Tightness.le_atom _, fits_call.mpr (List.forall_mem_nil _)⟩
  | lastArgument _ _ ih ih' =>
      intro done
      refine ih' ⟨Tightness.le_atom _, fits_call.mpr ?_⟩
      exact List.forall_mem_append.mpr ⟨done, List.forall_mem_singleton.mpr ih⟩
  | argument _ _ ih ih' =>
      intro done
      exact ih' (List.forall_mem_append.mpr ⟨done, List.forall_mem_singleton.mpr ih⟩)
  | key _ ih => exact fun before => ih ⟨le_refl Tightness.lookup, fits_property.mpr before⟩
  | endKeys _ | endTests _ => exact id
  | operand _ _ ih ih' => exact ih' ⟨le_trans (by decide) ih.1, ih.2⟩
  | @texts op _ right _ _ _ _ own _ _ ih ih' =>
      intro before
      refine ih' ⟨le_of_eq own.symm, fits_comparison.mpr ⟨before, ?_, ih.2⟩⟩
      rw [if_pos own]
      exact ih.1
  | @test op _ _ _ _ suffix _ ih =>
      intro before
      have tight := (tightness_of_suffix suffix).1
      exact ih ⟨le_of_eq tight.symm, fits_unary.mpr ⟨tight.symm ▸ before.1, before.2⟩⟩
  | @comparison op _ right _ _ _ own _ _ ih ih' =>
      refine ⟨le_of_eq own.symm, fits_comparison.mpr ⟨ih, ?_, ih'.2⟩⟩
      rw [own]
      exact ih'.1
  | negation _ ih => exact ⟨le_refl Tightness.not, fits_unary.mpr ih⟩
  | run own above _ _ ih ih' =>
      subst own
      have tighter := le_of_lt (lt_of_next? above)
      exact ⟨le_refl _, fits_logical.mpr ⟨⟨le_trans tighter ih.1, ih.2⟩, ih'⟩⟩
  | single above _ _ ih => exact ⟨le_trans (le_of_lt (lt_of_next? above)) ih.1, ih.2⟩

/-! ## What fits is read -/

/-- The next level above a looser one is not above a tighter one: `next?` skips none. -/
theorem le_of_next? {l m next : Tightness} (above : l.next? = some next) (strict : l < m) :
    next ≤ m := by
  show next.rank ≤ m.rank
  rw [rank_of_next? above]
  exact strict

/-- Below the tests there is a next level, `next?`. -/
theorem exists_next? {l : Tightness} (unnamed : .or ≤ l) (lower : l < .test) :
    ∃ next, l.next? = some next := by
  cases l
  case naming => exact absurd unnamed (by decide)
  case test | lookup | atom => exact absurd lower (by decide)
  all_goals exact ⟨_, rfl⟩

/-- What is read at a level is read at each looser one, if what follows is `Looser` than that. -/
theorem Reads.climb {l m : Tightness} {input rest : List Symbol} {e : Expression}
    (own : Reads (.level m) input e rest) (most : m ≤ .test) (unnamed : .or ≤ l) (lower : l ≤ m)
    (ends : Looser l rest) : Reads (.level l) input e rest := by
  rcases lower.eq_or_lt with rfl | strict
  · exact own
  · obtain ⟨next, above⟩ := exists_next? unnamed (lt_of_lt_of_le strict most)
    have tighter := le_of_lt (lt_of_next? above)
    exact .single above (own.climb most (le_trans unnamed tighter) (le_of_next? above strict)
      (ends.mono tighter)) ends
termination_by m.rank - l.rank
decreasing_by
  have grows := rank_of_next? above
  have bound : l.rank < m.rank := strict
  omega

/-- The symbols of an expression are read as the expression with all runs grouped from the right,
`regrouped`, at each level at which it may stand. -/
structure Readable (e : Expression) : Prop where
  /-- A lookup or an atom is read in front of the keys behind it. -/
  keys : .lookup ≤ e.tightness → ∀ {rest further : List Symbol} {result : Expression},
    Reads (.keys e.regrouped) rest result further →
    Reads (.level .lookup) (e.symbols ++ rest) result further
  /-- What binds more tightly than a comparison by an order is read in front of the tests behind
  it. -/
  tests : .test ≤ e.tightness → ∀ {rest further : List Symbol} {result : Expression},
    Looser .lookup rest → Reads (.tests e.regrouped) rest result further →
    Reads (.level .test) (e.symbols ++ rest) result further
  /-- The whole expression is read in front of what binds it more loosely. -/
  whole : ∀ {l : Tightness}, .or ≤ l → l ≤ .test → l ≤ e.tightness → ∀ {rest : List Symbol},
    Looser l rest → Reads (.level l) (e.symbols ++ rest) e.regrouped rest
  /-- A run of a connective is continued by what is read behind that connective. -/
  run : ∀ {op : Connective}, op.tightness ≤ e.tightness →
    ∀ {rest further : List Symbol} {right : Expression},
    Reads (.level op.tightness) rest right further →
    Reads (.level op.tightness) (e.symbols ++ .operator (.logical op) :: rest)
      (joined op e.regrouped right) further

/-- A continued run, `joined`, is one of its connective. -/
theorem isLogical_joined (op other : Connective) (left right : Expression) :
    (joined op left right).isLogical other = (op == other) := by
  by_cases own : left.isLogical op = true
  · obtain ⟨first, second, rfl⟩ := exists_of_isLogical own
    rw [joined_same]
    rfl
  · rw [joined_other (Bool.not_eq_true _ ▸ own)]
    rfl

/-- Grouping anew, by `regrouped`, keeps the connective. -/
theorem isLogical_regrouped_eq (e : Expression) (op : Connective) :
    e.regrouped.isLogical op = e.isLogical op := by
  cases e
  case logical own left right => exact isLogical_joined own op _ _
  all_goals rfl

/-- What binds more tightly than a connective is no condition of it, `isLogical`. -/
theorem isLogical_of_lt {e : Expression} {op : Connective} (strict : op.tightness < e.tightness) :
    e.isLogical op = false := by
  rcases own : e.isLogical op with _ | _
  · rfl
  · obtain ⟨left, right, rfl⟩ := exists_of_isLogical own
    exact (lt_irrefl _ strict).elim

/-- What binds more tightly than a connective is the first condition of a run of it, `whole`, which
is continued by what follows. -/
theorem run_of_whole {e : Expression}
    (whole : ∀ {l : Tightness}, .or ≤ l → l ≤ .test → l ≤ e.tightness → ∀ {rest : List Symbol},
      Looser l rest → Reads (.level l) (e.symbols ++ rest) e.regrouped rest)
    {op : Connective} (strict : op.tightness < e.tightness) {rest further : List Symbol}
    {right : Expression} (second : Reads (.level op.tightness) rest right further) :
    Reads (.level op.tightness) (e.symbols ++ .operator (.logical op) :: rest)
      (joined op e.regrouped right) further := by
  have below : op.tightness < .test := lt_trans op.lt_not (by decide)
  obtain ⟨next, above⟩ := exists_next? op.or_le below
  have tighter := lt_of_next? above
  rw [joined_other ((isLogical_regrouped_eq e op).trans (isLogical_of_lt strict))]
  exact .run rfl above (whole (le_trans op.or_le (le_of_lt tighter)) (le_of_next? above below)
    (le_of_next? above strict) (looser_cons tighter _)) second

namespace Readable

variable {e : Expression}

/-- An expression that is no condition of a connective is `Readable` if it is read up to its level
`m`. -/
theorem of_level {m : Tightness} (negation : .not ≤ m) (most : m ≤ .test) (tight : m ≤ e.tightness)
    (top : ∀ l, l ≤ .test → l ≤ e.tightness → l ≤ m)
    (keys : .lookup ≤ e.tightness → ∀ {rest further : List Symbol} {result : Expression},
      Reads (.keys e.regrouped) rest result further →
      Reads (.level .lookup) (e.symbols ++ rest) result further)
    (tests : .test ≤ e.tightness → ∀ {rest further : List Symbol} {result : Expression},
      Looser .lookup rest → Reads (.tests e.regrouped) rest result further →
      Reads (.level .test) (e.symbols ++ rest) result further)
    (own : ∀ {rest : List Symbol}, Looser m rest →
      Reads (.level m) (e.symbols ++ rest) e.regrouped rest) : Readable e := by
  have whole : ∀ {l : Tightness}, .or ≤ l → l ≤ .test → l ≤ e.tightness →
      ∀ {rest : List Symbol}, Looser l rest →
        Reads (.level l) (e.symbols ++ rest) e.regrouped rest := by
    intro l unnamed below lower rest looser
    have upTo := top l below lower
    exact (own (looser.mono upTo)).climb most unnamed upTo looser
  exact ⟨keys, tests, whole, fun _ _ _ _ second =>
    run_of_whole whole (lt_of_lt_of_le (Connective.lt_not _) (le_trans negation tight)) second⟩

/-- What binds as a `test` is `Readable` if it is read in front of tests. -/
theorem of_tests (tight : e.tightness = .test)
    (tests : ∀ {rest further : List Symbol} {result : Expression}, Looser .lookup rest →
      Reads (.tests e.regrouped) rest result further →
      Reads (.level .test) (e.symbols ++ rest) result further) : Readable e :=
  of_level (by decide) (le_refl _) (le_of_eq tight.symm) (fun _ below _ => below)
    (fun lookup => absurd (tight ▸ lookup) (by decide)) (fun _ => tests)
    fun looser => tests (looser.mono (by decide)) (.endTests looser)

/-- A lookup or an atom is `Readable` if it is read in front of keys. -/
theorem of_keys (tight : .lookup ≤ e.tightness)
    (keys : ∀ {rest further : List Symbol} {result : Expression},
      Reads (.keys e.regrouped) rest result further →
      Reads (.level .lookup) (e.symbols ++ rest) result further) : Readable e :=
  of_level (m := .test) (by decide) (le_refl _) (le_trans (by decide) tight)
    (fun _ below _ => below) (fun _ => keys)
    (fun _ _ _ _ looser behind => .operand (keys (.endKeys looser)) behind)
    fun looser => .operand (keys (.endKeys (looser.mono (by decide)))) (.endTests looser)

/-- A comparison by an order and a negation are `Readable` if they are read at their level. -/
theorem of_own (negation : .not ≤ e.tightness) (most : e.tightness ≤ .comparison)
    (own : ∀ {rest : List Symbol}, Looser e.tightness rest →
      Reads (.level e.tightness) (e.symbols ++ rest) e.regrouped rest) : Readable e :=
  of_level negation (le_trans most (by decide)) (le_refl _) (fun _ _ lower => lower)
    (fun lookup => absurd (le_trans lookup most) (by decide))
    (fun test => absurd (le_trans test most) (by decide)) own

/-- A run of a connective is `Readable` if both of its conditions are and bind as tightly. -/
theorem logical {op : Connective} {left right : Expression} (first : Readable left)
    (second : Readable right) (own : op.tightness ≤ left.tightness)
    (otherOwn : op.tightness ≤ right.tightness) : Readable (.logical op left right) := by
  have below : op.tightness < .test := lt_trans op.lt_not (by decide)
  -- The run of the second condition is continued first, and then that of the first one.
  have continued {rest further : List Symbol} {result : Expression}
      (behind : Reads (.level op.tightness) rest result further) :
      Reads (.level op.tightness) ((Expression.logical op left right).symbols ++
        .operator (.logical op) :: rest)
        (joined op (Expression.logical op left right).regrouped result) further := by
    rw [symbols, List.append_assoc, regrouped, joined_joined]
    exact first.run own (second.run otherOwn behind)
  have whole : ∀ {l : Tightness}, .or ≤ l → l ≤ .test → l ≤ op.tightness →
      ∀ {rest : List Symbol}, Looser l rest → Reads (.level l)
        ((Expression.logical op left right).symbols ++ rest)
        (Expression.logical op left right).regrouped rest := by
    intro l unnamed _ lower rest looser
    have behind := second.whole op.or_le (le_of_lt below) otherOwn (looser.mono lower)
    have read := first.run own behind
    rw [symbols, List.append_assoc]
    exact read.climb (le_of_lt below) unnamed lower looser
  refine ⟨?_, ?_, whole, ?_⟩
  · intro lookup
    exact absurd (lt_of_lt_of_le below (by decide)) (not_lt_of_ge lookup)
  · intro test
    exact absurd below (not_lt_of_ge test)
  · intro other lower rest further result behind
    rcases lower.eq_or_lt with same | strict
    · cases Connective.tightness_injective same
      exact continued behind
    · exact run_of_whole whole strict behind

/-- An operand of one symbol is `Readable`. -/
theorem of_symbol {symbol : Symbol} (tight : .lookup ≤ e.tightness) (symbols : e.symbols = [symbol])
    (alone : symbol.operand? = some e.regrouped) : Readable e :=
  of_keys tight fun behind => by
    rw [symbols]
    exact .word alone behind

/-- A property of a `Readable` lookup or atom is readable. -/
theorem property {subject : Expression} (readable : Readable subject)
    (tight : .lookup ≤ subject.tightness) (key : String) : Readable (.property subject key) :=
  of_keys (le_refl Tightness.lookup) fun behind => by
    rw [symbols, List.append_assoc]
    exact readable.keys tight (.key behind)

/-- A `Readable` expression in parentheses is readable. -/
theorem nested {inner : Expression} (readable : Readable inner) (unnamed : .or ≤ inner.tightness) :
    Readable (.nested inner) :=
  of_keys (Tightness.le_atom _) fun behind => by
    rw [symbols, List.cons_append, List.append_assoc]
    have closed := looser_cons (by decide : Symbol.closing.tightness < .or)
    exact .nested (readable.whole (le_refl _) (by decide) unnamed (closed _)) behind

/-- Arguments that are `Readable` are read behind those that have been read, at the stage
`arguments`. -/
theorem arguments {function : String} {distinct : Bool} {more : List Expression}
    (readable : ∀ argument ∈ more, Readable argument ∧ .or ≤ argument.tightness)
    {done : List Expression} (present : more ≠ []) {rest further : List Symbol}
    {result : Expression}
    (behind : Reads (.keys (.call function distinct (done ++ regroupedAll more))) rest result
      further) :
    Reads (.arguments function distinct done) (symbolsAll more ++ .closing :: rest) result
      further := by
  induction more generalizing done with
  | nil => exact absurd rfl present
  | cons argument others ih =>
      obtain ⟨⟨own, unnamed⟩, later⟩ := List.forall_mem_cons.mp readable
      rcases others with _ | ⟨next, others⟩
      · exact .lastArgument (own.whole (le_refl _) (by decide) unnamed (looser_cons (by decide) _))
          behind
      · rw [symbolsAll, List.append_assoc]
        refine .argument (own.whole (le_refl _) (by decide) unnamed (looser_cons (by decide) _)) ?_
        refine ih later (List.cons_ne_nil _ _) ?_
        rw [List.append_assoc]
        exact behind

/-- A call with arguments that are `Readable` is readable. -/
theorem call {arguments : List Expression}
    (readable : ∀ argument ∈ arguments, Readable argument ∧ .or ≤ argument.tightness)
    (function : String) (distinct : Bool) : Readable (.call function distinct arguments) :=
  of_keys (Tightness.le_atom _) fun {rest further result} behind => by
    have inside : Reads (.arguments function distinct [])
        (symbolsAll arguments ++ .closing :: rest) result further := by
      rcases arguments with _ | ⟨argument, others⟩
      · exact .noArguments behind
      · exact Readable.arguments readable (List.cons_ne_nil _ _) behind
    rw [symbols, List.cons_append, List.append_assoc, List.append_assoc]
    rcases distinct with _ | _
    · exact .call inside
    · exact .callDistinct inside

/-- A comparison of `Readable` operands that fit is readable. -/
theorem comparison {op : Comparison} {left right : Expression} (first : Readable left)
    (second : Readable right) (fits : Fits (.comparison op left right)) :
    Readable (.comparison op left right) := by
  obtain ⟨⟨tight, -⟩, otherTight, -⟩ := fits_comparison.mp fits
  have level : (Expression.comparison op left right).tightness = op.tightness := rfl
  have binds : (Symbol.operator (.comparison op)).tightness = op.tightness := rfl
  by_cases texts : op.tightness = .test
  · rw [if_pos texts] at otherTight
    rw [texts] at level binds
    refine of_tests level fun looser behind => ?_
    have follows := looser_cons (lt_of_eq_of_lt binds (by decide : Tightness.test < .lookup))
    rw [symbols, List.append_assoc]
    exact first.tests tight (follows _)
      (.texts texts (second.keys otherTight (.endKeys looser)) behind)
  · rw [if_neg texts] at otherTight
    have ordered : op.tightness = .comparison := by
      cases op <;> first | rfl | exact absurd rfl texts
    rw [ordered] at level binds
    refine of_own (le_trans (by decide) (le_of_eq level.symm)) (le_of_eq level) fun looser => ?_
    have follows := looser_cons (lt_of_eq_of_lt binds (by decide : Tightness.comparison < .test))
    rw [level] at looser ⊢
    rw [symbols, List.append_assoc]
    exact .comparison ordered (first.whole (by decide) (le_refl _) tight (follows _))
      (second.whole (by decide) (le_refl _) otherTight (looser.mono (by decide)))

/-- A test of a `Readable` operand that fits is readable. -/
theorem test {op : UnaryOperator} {operand : Expression} (readable : Readable operand)
    (suffix : op.precedesOperand = false) (tight : .test ≤ operand.tightness) :
    Readable (.unary op operand) := by
  obtain ⟨level, binds⟩ := tightness_of_suffix suffix
  refine of_tests level fun looser behind => ?_
  rw [symbols, suffix, if_neg Bool.false_ne_true, List.append_assoc]
  refine readable.tests tight (looser_cons ?_ _) (.test suffix behind)
  rw [binds]
  decide

/-- A negation of a `Readable` operand that fits is readable. -/
theorem not {operand : Expression} (readable : Readable operand)
    (tight : .not ≤ operand.tightness) : Readable (.unary .not operand) :=
  of_own (le_refl Tightness.not) (by decide : Tightness.not ≤ .comparison) fun looser =>
    .negation (readable.whole (by decide) (by decide) tight looser)

end Readable

/-- An expression whose operands fit, `Expression.Fits`, is `Readable`, by induction on the
expression. -/
theorem readable_of_fits {e : Expression} (unnamed : .or ≤ e.tightness) (fits : Fits e) :
    Readable e := by
  induction fits with
  | @intro e tight inside ih =>
      have each : ∀ operand ∈ e.operands, Readable operand.2 ∧ operand.1 ≤ operand.2.tightness :=
        fun operand mem =>
          have own := tight operand mem
          ⟨ih operand mem (le_trans (or_le_of_mem_operands e operand mem) own), own⟩
      rcases e with value | name | name | ⟨subject, key⟩ | ⟨function, distinct, arguments⟩ | _ |
        ⟨op, left, right⟩ | ⟨op, left, right⟩ | ⟨op, operand⟩ | inner | ⟨inner, name⟩
      case literal | parameter | «variable» | asterisk =>
        exact .of_symbol (Tightness.le_atom _) rfl rfl
      case property =>
        obtain ⟨own, lookup⟩ := each _ List.mem_cons_self
        exact own.property lookup key
      case call =>
        refine .call (fun argument mem => ?_) function distinct
        exact each (.or, argument) (List.mem_map_of_mem mem)
      case comparison =>
        have first := (each _ List.mem_cons_self).1
        have second := (each _ (List.mem_cons_of_mem _ List.mem_cons_self)).1
        exact first.comparison second ⟨tight, inside⟩
      case logical =>
        obtain ⟨first, own⟩ := each _ List.mem_cons_self
        obtain ⟨second, otherOwn⟩ := each _ (List.mem_cons_of_mem _ List.mem_cons_self)
        exact first.logical second own otherOwn
      case unary =>
        obtain ⟨own, binds⟩ := each _ List.mem_cons_self
        cases op with
        | not => exact own.not binds
        | isNull | isNotNull => exact own.test rfl binds
      case nested =>
        obtain ⟨own, named⟩ := each _ List.mem_cons_self
        exact own.nested named
      case aliased => exact absurd unnamed (by decide : ¬Tightness.or ≤ .naming)

/-- An expression is read from its symbols at the loosest level, up to the grouping of runs
(`Regroups`), exactly if its operands fit. -/
theorem exists_reads_iff_fits {e : Expression} (unnamed : .or ≤ e.tightness) :
    (∃ other, Reads (.level .or) e.symbols other [] ∧ Regroups e other) ↔ Fits e := by
  constructor
  · rintro ⟨other, reads, regroups⟩
    exact regroups.fits_iff.2.mpr reads.fitting.2
  · intro fits
    have ends : Looser .or [] := fun _ head => nomatch head
    have reads := (readable_of_fits unnamed fits).whole (le_refl _) (by decide) unnamed ends
    rw [List.append_nil] at reads
    exact ⟨e.regrouped, reads, regroups_regrouped e⟩

end Precedence

/-! ## Reading a text -/

/-- If a part is a call, its function is a plain name, `Name.isPlain`. -/
def Part.HasPlainFunction : Part → Prop
  | .expression (.call function _ _) => Name.isPlain function = true
  | _ => True

/-- A plain name is a word: `HasPlainFunction` is stronger than `HasWordFunction`. -/
theorem Part.HasPlainFunction.hasWordFunction {part : Part} (plain : part.HasPlainFunction) :
    part.HasWordFunction := by
  unfold HasPlainFunction at plain
  split at plain
  · rw [Name.isPlain, Bool.and_eq_true] at plain
    exact plain.1
  · next other =>
      unfold HasWordFunction
      split
      · exact absurd rfl (other _ _ _)
      · trivial

namespace Expression

variable (config : RenderConfig)

mutual

/-- The `symbols` of an expression with a text have their own content only, `Symbol.Proper`. -/
theorem proper_of_print (e : Expression) (plain : ∀ part ∈ e.preorder, part.HasPlainFunction)
    {text : List Char} (written : Print.expression config e = .ok text) :
    ∀ symbol ∈ e.symbols, symbol.Proper := by
  have alone {symbol : Symbol} (proper : symbol.Proper) : ∀ own ∈ [symbol], own.Proper :=
    List.forall_mem_singleton.mpr proper
  rcases e with value | name | name | ⟨subject, key⟩ | ⟨function, distinct, arguments⟩ | _ |
    ⟨op, left, right⟩ | ⟨op, left, right⟩ | ⟨op, operand⟩ | inner | ⟨inner, name⟩
  case literal => exact alone ⟨text, written⟩
  case property =>
    obtain ⟨before, subjectWritten, -⟩ := Attempt.bind_eq_ok.mp written
    have inside := proper_of_print subject (List.forall_mem_cons.mp plain).2 subjectWritten
    exact List.forall_mem_append.mpr ⟨inside, alone trivial⟩
  case call =>
    obtain ⟨own, others⟩ := List.forall_mem_cons.mp plain
    obtain ⟨inside, argumentsWritten, -⟩ := Attempt.bind_eq_ok.mp written
    have each := proper_of_printAll arguments others argumentsWritten
    have word : ∀ symbol ∈ (if distinct then [Symbol.distinct] else []), symbol.Proper := by
      split
      · exact alone trivial
      · exact List.forall_mem_nil _
    exact List.forall_mem_cons.mpr ⟨own, List.forall_mem_append.mpr
      ⟨word, List.forall_mem_append.mpr ⟨each, alone trivial⟩⟩⟩
  case comparison | logical =>
    obtain ⟨before, leftWritten, later⟩ := Attempt.bind_eq_ok.mp written
    obtain ⟨behind, rightWritten, -⟩ := Attempt.bind_eq_ok.mp later
    obtain ⟨first, second⟩ := List.forall_mem_append.mp (List.forall_mem_cons.mp plain).2
    exact List.forall_mem_append.mpr ⟨proper_of_print left first leftWritten,
      List.forall_mem_cons.mpr ⟨trivial, proper_of_print right second rightWritten⟩⟩
  case unary =>
    obtain ⟨own, operandWritten, -⟩ := Attempt.bind_eq_ok.mp written
    have inside := proper_of_print operand (List.forall_mem_cons.mp plain).2 operandWritten
    rw [symbols]
    split
    · exact List.forall_mem_cons.mpr ⟨trivial, inside⟩
    · exact List.forall_mem_append.mpr ⟨inside, alone trivial⟩
  case nested =>
    obtain ⟨own, innerWritten, -⟩ := Attempt.bind_eq_ok.mp written
    have inside := proper_of_print inner (List.forall_mem_cons.mp plain).2 innerWritten
    exact List.forall_mem_cons.mpr ⟨trivial, List.forall_mem_append.mpr ⟨inside, alone trivial⟩⟩
  case aliased =>
    obtain ⟨before, innerWritten, -⟩ := Attempt.bind_eq_ok.mp written
    have inside := proper_of_print inner (List.forall_mem_cons.mp plain).2 innerWritten
    exact List.forall_mem_append.mpr ⟨inside, alone trivial⟩
  all_goals exact alone trivial

/-- The symbols of arguments with a text are `Proper`: they have their own content only. -/
theorem proper_of_printAll (es : List Expression)
    (plain : ∀ part ∈ preorderAll es, part.HasPlainFunction)
    {text : List Char} (written : Print.expressions config es = .ok text) :
    ∀ symbol ∈ symbolsAll es, symbol.Proper := by
  rcases es with _ | ⟨e, _ | ⟨next, rest⟩⟩
  · exact List.forall_mem_nil _
  · exact proper_of_print e (List.forall_mem_append.mp plain).1 written
  · obtain ⟨first, others⟩ := List.forall_mem_append.mp plain
    obtain ⟨before, own, later⟩ := Attempt.bind_eq_ok.mp written
    obtain ⟨behind, othersWritten, -⟩ := Attempt.bind_eq_ok.mp later
    exact List.forall_mem_append.mpr ⟨proper_of_print e first own,
      List.forall_mem_cons.mpr ⟨trivial, proper_of_printAll (next :: rest) others othersWritten⟩⟩

end

/-- The text is cut by the scanner into the pieces of symbols, and these are read by precedence,
`Precedence.Reads`, as an expression. -/
def ReadFrom (text : String) (e : Expression) : Prop :=
  ∃ symbols : List Symbol, Flows symbols ∧ (∀ symbol ∈ symbols, symbol.Proper) ∧
    Scan.pieces text.toList = symbols.flatMap (Symbol.pieces config) ∧
    Precedence.Reads (.level .or) symbols e []

/-- What is read from the text of an expression is read from its `symbols`. -/
theorem readFrom_iff {e : Expression} (plain : ∀ part ∈ e.preorder, part.HasPlainFunction)
    {text : String} (rendered : Renderer.renderExpression ⟨config⟩ e = .ok text)
    (other : Expression) :
    ReadFrom config text other ↔ Precedence.Reads (.level .or) e.symbols other [] := by
  rw [Renderer.renderExpression_eq_print] at rendered
  obtain ⟨chars, written, rfl⟩ := Renderer.map_ofList_eq_ok.mp rendered
  have proper := proper_of_print config e plain written
  have flows : Flows e.symbols := by
    have whole := e.flows_symbols (fun _ head => nomatch head : Follows []) trivial
    rwa [List.append_nil] at whole
  have cut : Scan.pieces chars = e.symbols.flatMap (Symbol.pieces config) := by
    rw [← spelling_eq_symbols]
    exact (spells_expression config e (fun part mem => (plain part mem).hasWordFunction) chars
      written).splits.pieces_eq trivial
  rw [ReadFrom, String.toList_ofList, cut]
  constructor
  · rintro ⟨symbols, ownFlows, ownProper, same, reads⟩
    rwa [symbols_eq_of_pieces config flows ownFlows proper ownProper same]
  · exact fun reads => ⟨e.symbols, flows, proper, rfl, reads⟩

/-- An expression with operands that do not fit is read from its text as a third one, if some
`other` one has the same symbols and its operands fit. -/
theorem exists_misread {e other : Expression} (plain : ∀ part ∈ e.preorder, part.HasPlainFunction)
    {text : String} (rendered : Renderer.renderExpression ⟨config⟩ e = .ok text)
    (misfit : ¬Fits e) (same : other.symbols = e.symbols) (unnamed : .or ≤ other.tightness)
    (fits : Fits other) : ∃ third, ReadFrom config text third ∧ Regroups other third ∧
      ¬Regroups e third := by
  obtain ⟨third, reads, regroups⟩ := (Precedence.exists_reads_iff_fits unnamed).mpr fits
  rw [same] at reads
  refine ⟨third, (readFrom_iff config plain rendered third).mpr reads, regroups, fun alike => ?_⟩
  exact misfit (alike.fits_iff.2.mpr (regroups.fits_iff.2.mp fits))

/-- All operands of a composed expression fit, `Fits`, exactly if it is `Careful`: properties are
looked up in lookups and atoms only and no test for a value is the second operand of a comparison of
texts. Exactly then its text is read by precedence, `ReadFrom`, as the expression, up to the
grouping of runs of one connective (`Regroups`); and whatever is read from the text is determined by
it. -/
theorem operands_fit_iff_careful {e : Expression} (built : Built e) :
    (Fits e ↔ Careful e) ∧
    ∀ (config : RenderConfig) (text : String),
      (∀ part ∈ e.preorder, part.HasPlainFunction) →
      Renderer.renderExpression ⟨config⟩ e = .ok text →
        ((∃ other, ReadFrom config text other ∧ Regroups e other) ↔ Careful e) ∧
        ∀ first second, ReadFrom config text first → ReadFrom config text second →
          first = second := by
  refine ⟨built.fits_iff_careful, fun config text plain rendered => ⟨?_, ?_⟩⟩
  · simp only [readFrom_iff config plain rendered]
    exact (Precedence.exists_reads_iff_fits built.or_le).trans built.fits_iff_careful
  · intro first second reads others
    rw [readFrom_iff config plain rendered] at reads others
    exact (reads.unique others).1

/-- A test for a value in front of a comparison of texts and a negation behind it are read back from
`a IS NULL STARTS WITH (NOT b)`. -/
theorem operands_fit_of_groupedNegation :
    ∃ e other, e = compare .startsWith (.isNull (.variable "a")) (negation (.variable "b")) ∧
      Careful e ∧ Renderer.renderExpression ⟨.plain⟩ e = .ok "a IS NULL STARTS WITH (NOT b)" ∧
      ReadFrom .plain "a IS NULL STARTS WITH (NOT b)" other ∧ Regroups e other := by
  have built := Built.compare .startsWith (.isNull (.variable "a")) (.negation (.variable "b"))
  have atom : ∀ name, Fits (.variable name) := fun _ => fits_iff.mpr (List.forall_mem_nil _)
  have left : Fits (.unary .isNull (.variable "a")) := fits_unary.mpr ⟨by decide, atom "a"⟩
  have negated : Fits (.unary .not (.variable "b")) := fits_unary.mpr ⟨by decide, atom "b"⟩
  have right : Fits (.nested (.unary .not (.variable "b"))) :=
    fits_nested.mpr ⟨by decide, negated⟩
  have fits : Fits (compare .startsWith (.isNull (.variable "a")) (negation (.variable "b"))) :=
    fits_comparison.mpr ⟨⟨by decide, left⟩, by decide, right⟩
  obtain ⟨careful, reading⟩ := operands_fit_iff_careful built
  obtain ⟨back, -⟩ := reading .plain "a IS NULL STARTS WITH (NOT b)"
    (by simp [compare, grouped, isNull, negation, preorder, Part.HasPlainFunction]) rfl
  obtain ⟨other, read, regroups⟩ := back.mpr (careful.mp fits)
  exact ⟨_, other, rfl, careful.mp fits, rfl, read, regroups⟩

/-- A test for a value behind a comparison of texts does not fit its place, nor does a comparison
fit the place of the subject of a property. Both are read as something else from their texts,
`a STARTS WITH b IS NULL` and `a = b.k`. -/
theorem operands_misfit_of_nullTest :
    (∃ e third, e = compare .startsWith (.variable "a") (.isNull (.variable "b")) ∧ Built e ∧
      ¬Fits e ∧ Renderer.renderExpression ⟨.plain⟩ e = .ok "a STARTS WITH b IS NULL" ∧
      ReadFrom .plain "a STARTS WITH b IS NULL" third ∧ ¬Regroups e third) ∧
    ∃ e third, e = property (compare .equal (.variable "a") (.variable "b")) "k" ∧ Built e ∧
      ¬Fits e ∧ Renderer.renderExpression ⟨.plain⟩ e = .ok "a = b.k" ∧
      ReadFrom .plain "a = b.k" third ∧ ¬Regroups e third := by
  have atom : ∀ name, Fits (.variable name) := fun _ => fits_iff.mpr (List.forall_mem_nil _)
  constructor
  · have misfit : ¬Fits (compare .startsWith (.variable "a") (.isNull (.variable "b"))) :=
      fun fits => absurd (fits_comparison.mp fits).2.1 (by decide)
    have compared : Fits (.comparison .startsWith (.variable "a") (.variable "b")) :=
      fits_comparison.mpr ⟨⟨by decide, atom "a"⟩, by decide, atom "b"⟩
    have fits : Fits (.unary .isNull (.comparison .startsWith (.variable "a") (.variable "b"))) :=
      fits_unary.mpr ⟨by decide, compared⟩
    have same : (unary .isNull (comparison .startsWith (.variable "a") (.variable "b"))).symbols =
        (compare .startsWith (.variable "a") (.isNull (.variable "b"))).symbols := rfl
    obtain ⟨third, read, -, other⟩ := exists_misread .plain
      (by simp [compare, grouped, isNull, preorder, Part.HasPlainFunction]) rfl misfit same
      (by decide) fits
    exact ⟨_, third, rfl, .compare _ (.variable "a") (.isNull (.variable "b")), misfit, rfl, read,
      other⟩
  · have misfit : ¬Fits (property (compare .equal (.variable "a") (.variable "b")) "k") :=
      fun fits => absurd (fits_property.mp fits).1 (by decide)
    have lookup : Fits (.property (.variable "b") "k") := fits_property.mpr ⟨by decide, atom "b"⟩
    have fits : Fits (.comparison .equal (.variable "a") (.property (.variable "b") "k")) :=
      fits_comparison.mpr ⟨⟨by decide, atom "a"⟩, by decide, lookup⟩
    have same : (comparison .equal (.variable "a") (.property (.variable "b") "k")).symbols =
        (property (compare .equal (.variable "a") (.variable "b")) "k").symbols := rfl
    obtain ⟨third, read, -, other⟩ := exists_misread .plain
      (by simp [compare, grouped, preorder, Part.HasPlainFunction]) rfl misfit same (by decide) fits
    exact ⟨_, third, rfl, .property (.compare _ (.variable "a") (.variable "b")) "k", misfit, rfl,
      read, other⟩

end Expression

end CypherQuery
