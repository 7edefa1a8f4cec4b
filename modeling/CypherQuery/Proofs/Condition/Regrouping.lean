import CypherQuery.Proofs.Render.Visitor

/-! # Grouping runs of one connective anew

Conditions that are combined by one and the same connective may be grouped in any way: the text
shows no grouping between them. The relation `Regroups` says when two expressions differ in this way
only, `regrouped` gives for every expression the one that groups each run from the right, and
expressions which differ in this way have the same text (`Regroups.print_eq`). -/

namespace CypherQuery

namespace Expression

/-- Two expressions differ at most in the grouping of runs of one and the same connective: the least
congruence that has `assoc`. -/
inductive Regroups : Expression → Expression → Prop where
  /-- Nothing differs. -/
  | refl (e : Expression) : Regroups e e
  /-- The difference goes both ways. -/
  | symm {e other : Expression} (regroups : Regroups e other) : Regroups other e
  /-- One difference after the other. -/
  | trans {e between other : Expression} (first : Regroups e between)
      (second : Regroups between other) : Regroups e other
  /-- Three conditions under one connective are grouped from the left or from the right. -/
  | assoc (op : Connective) (first second third : Expression) :
      Regroups (.logical op (.logical op first second) third)
        (.logical op first (.logical op second third))
  /-- The difference is in the subject of a property. -/
  | property (key : String) {subject other : Expression} (regroups : Regroups subject other) :
      Regroups (.property subject key) (.property other key)
  /-- The difference is in an argument of a call. -/
  | argument (function : String) (distinct : Bool) (before after : List Expression)
      {argument other : Expression} (regroups : Regroups argument other) :
      Regroups (.call function distinct (before ++ argument :: after))
        (.call function distinct (before ++ other :: after))
  /-- The difference is in the operands of a comparison. -/
  | comparison (op : Comparison) {left otherLeft right otherRight : Expression}
      (first : Regroups left otherLeft) (second : Regroups right otherRight) :
      Regroups (.comparison op left right) (.comparison op otherLeft otherRight)
  /-- The difference is in the conditions that are combined. -/
  | logical (op : Connective) {left otherLeft right otherRight : Expression}
      (first : Regroups left otherLeft) (second : Regroups right otherRight) :
      Regroups (.logical op left right) (.logical op otherLeft otherRight)
  /-- The difference is in the operand. -/
  | unary (op : UnaryOperator) {operand other : Expression} (regroups : Regroups operand other) :
      Regroups (.unary op operand) (.unary op other)
  /-- The difference is in the parentheses. -/
  | nested {inner other : Expression} (regroups : Regroups inner other) :
      Regroups (.nested inner) (.nested other)
  /-- The difference is in what has a new name. -/
  | aliased (newName : String) {inner other : Expression} (regroups : Regroups inner other) :
      Regroups (.aliased inner newName) (.aliased other newName)

/-- Two conditions under a connective, with the first one's run of that connective continued from
the right: `logical` up to regrouping. -/
def joined (op : Connective) : Expression → Expression → Expression
  | .logical own first second, right =>
      if own = op then .logical op first (joined op second right)
      else .logical op (.logical own first second) right
  | left, right => .logical op left right

mutual

/-- The expression with every run of one connective grouped from the right, by `joined`. -/
def regrouped : Expression → Expression
  | .literal value => .literal value
  | .parameter name => .parameter name
  | .variable name => .variable name
  | .asterisk => .asterisk
  | .property subject key => .property subject.regrouped key
  | .call function distinct arguments => .call function distinct (regroupedAll arguments)
  | .comparison op left right => .comparison op left.regrouped right.regrouped
  | .logical op left right => joined op left.regrouped right.regrouped
  | .unary op operand => .unary op operand.regrouped
  | .nested inner => .nested inner.regrouped
  | .aliased inner name => .aliased inner.regrouped name

/-- The expressions with every run of one connective grouped from the right, each by `regrouped`. -/
def regroupedAll : List Expression → List Expression
  | [] => []
  | e :: rest => e.regrouped :: regroupedAll rest

end

/-- A run of the same connective is continued from the right by `joined`. -/
theorem joined_same (op : Connective) (first second right : Expression) :
    joined op (.logical op first second) right = .logical op first (joined op second right) := by
  rw [joined, if_pos rfl]

/-- Anything else is the first condition of a run: `joined` is `logical`. -/
theorem joined_other {op : Connective} {left : Expression} (other : left.isLogical op = false)
    (right : Expression) : joined op left right = .logical op left right := by
  rcases left with _ | _ | _ | _ | _ | _ | _ | ⟨own, first, second⟩ | _ | _ | _
  case logical =>
    rw [isLogical, beq_eq_false_iff_ne] at other
    rw [joined, if_neg other]
  all_goals rfl

/-- A combination of a connective, `isLogical`, starts with that connective. -/
theorem exists_of_isLogical {op : Connective} {e : Expression} (own : e.isLogical op = true) :
    ∃ left right, e = .logical op left right := by
  rcases e with _ | _ | _ | _ | _ | _ | _ | ⟨other, left, right⟩ | _ | _ | _
  case logical =>
    rw [isLogical, beq_iff_eq] at own
    exact ⟨left, right, by rw [own]⟩
  all_goals cases own

/-- Runs may be continued one after the other in either order: `joined` is associative. -/
theorem joined_joined (op : Connective) (left middle right : Expression) :
    joined op (joined op left middle) right = joined op left (joined op middle right) := by
  by_cases run : left.isLogical op = true
  · obtain ⟨first, second, rfl⟩ := exists_of_isLogical run
    rw [joined_same, joined_same, joined_same, joined_joined op second middle right]
  · rw [Bool.not_eq_true] at run
    rw [joined_other run, joined_same, joined_other run]
termination_by left

/-- Continuing a run, by `joined`, only groups it anew. -/
theorem regroups_joined (op : Connective) (left right : Expression) :
    Regroups (.logical op left right) (joined op left right) := by
  by_cases run : left.isLogical op = true
  · obtain ⟨first, second, rfl⟩ := exists_of_isLogical run
    rw [joined_same]
    exact (Regroups.assoc op first second right).trans
      (.logical op (.refl first) (regroups_joined op second right))
  · rw [Bool.not_eq_true] at run
    rw [joined_other run]
    exact .refl _
termination_by left

mutual

/-- Grouping every run from the right, by `regrouped`, changes the grouping only. -/
theorem regroups_regrouped (e : Expression) : Regroups e e.regrouped := by
  rcases e with value | name | name | ⟨subject, key⟩ | ⟨function, distinct, arguments⟩ | _ |
    ⟨op, left, right⟩ | ⟨op, left, right⟩ | ⟨op, operand⟩ | inner | ⟨inner, name⟩
  case property => exact .property key (regroups_regrouped subject)
  case call => exact regroups_regroupedAll function distinct [] arguments
  case comparison => exact .comparison op (regroups_regrouped left) (regroups_regrouped right)
  case logical =>
    exact (Regroups.logical op (regroups_regrouped left) (regroups_regrouped right)).trans
      (regroups_joined op _ _)
  case unary => exact .unary op (regroups_regrouped operand)
  case nested => exact .nested (regroups_regrouped inner)
  case aliased => exact .aliased name (regroups_regrouped inner)
  all_goals exact .refl _

/-- Grouping every run in arguments from the right, by `regroupedAll`, changes the grouping only. -/
theorem regroups_regroupedAll (function : String) (distinct : Bool)
    (before arguments : List Expression) :
    Regroups (.call function distinct (before ++ arguments))
      (.call function distinct (before ++ regroupedAll arguments)) := by
  rcases arguments with _ | ⟨e, rest⟩
  · exact .refl _
  · -- The first argument is grouped anew, and then it is one of those before the others.
    have others := regroups_regroupedAll function distinct (before ++ [e.regrouped]) rest
    rw [List.append_assoc, List.append_assoc] at others
    exact (Regroups.argument function distinct before rest (regroups_regrouped e)).trans others

end

/-! ## The text shows no grouping of a run -/

variable (config : RenderConfig)

/-- The text of a `call` depends on an argument by the text of that argument. -/
theorem print_argument (function : String) (distinct : Bool) (before after : List Expression)
    {argument other : Expression}
    (same : Print.expression config argument = Print.expression config other) :
    Print.expression config (.call function distinct (before ++ argument :: after))
      = Print.expression config (.call function distinct (before ++ other :: after)) := by
  have lists : Print.expressions config (before ++ argument :: after)
      = Print.expressions config (before ++ other :: after) := by
    induction before with
    | nil =>
        rcases after with _ | ⟨next, rest⟩
        · exact same
        · rw [List.nil_append, List.nil_append, Print.expressions, Print.expressions, same]
    | cons first rest ih =>
        obtain ⟨next, others, begins⟩ := List.exists_cons_of_ne_nil
          (show rest ++ argument :: after ≠ [] by simp)
        obtain ⟨next', others', begins'⟩ := List.exists_cons_of_ne_nil
          (show rest ++ other :: after ≠ [] by simp)
        rw [begins, begins'] at ih
        rw [List.cons_append, List.cons_append, begins, begins', Print.expressions,
          Print.expressions, ih]
  rw [Print.expression, Print.expression, lists]

/-- Expressions that differ in the grouping of runs only, `Regroups`, have the same text, or none
for the same reason. -/
theorem Regroups.print_eq {e other : Expression} (regroups : Regroups e other) :
    Print.expression config e = Print.expression config other := by
  induction regroups with
  | refl e => rfl
  | symm _ ih => exact ih.symm
  | trans _ _ ih ih' => exact ih.trans ih'
  | assoc op first second third =>
      simp only [Print.expression, bind_assoc, pure_bind, List.append_assoc]
  | property key _ ih => rw [Print.expression, Print.expression, ih]
  | argument function distinct before after _ ih =>
      exact print_argument config function distinct before after ih
  | comparison op _ _ ih ih' => rw [Print.expression, Print.expression, ih, ih']
  | logical op _ _ ih ih' => rw [Print.expression, Print.expression, ih, ih']
  | unary op _ ih => rw [Print.expression, Print.expression, ih]
  | nested _ ih => rw [Print.expression, Print.expression, ih]
  | aliased name _ ih => rw [Print.expression, Print.expression, ih]

end Expression

end CypherQuery
