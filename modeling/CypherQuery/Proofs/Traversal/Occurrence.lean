import CypherQuery.Proofs.PatternText.Readable
import CypherQuery.Proofs.Traversal.Collecting

/-! # What occurs in a statement

Where an expression can occur is said here without any traversal: it stands in a place of a clause
(`Clause.Holds`) or inside an expression that does (`Expression.OccursIn`). The main statement,
`collecting_goes_through_preorder`, is that a collector goes through the preorder of a tree, and
that the parameters a statement refers to are those that occur in it. -/

namespace CypherQuery

/-! ## Inside expressions -/

/-- An expression occurs in another one: as the `whole`, or in one of its direct parts. There is one
constructor for each place of an expression. -/
inductive Expression.OccursIn (e : Expression) : Expression → Prop where
  /-- As the whole. -/
  | whole : OccursIn e e
  /-- In the subject of a property. -/
  | subject {subject : Expression} (inside : OccursIn e subject) (key : String) :
      OccursIn e (.property subject key)
  /-- In an argument of a call. -/
  | argument {argument : Expression} {arguments : List Expression} (inside : OccursIn e argument)
      (among : argument ∈ arguments) (function : String) (distinct : Bool) :
      OccursIn e (.call function distinct arguments)
  /-- In the left operand of a comparison. -/
  | comparedLeft {left : Expression} (inside : OccursIn e left) (op : Comparison)
      (right : Expression) : OccursIn e (.comparison op left right)
  /-- In the right operand of a comparison. -/
  | comparedRight {right : Expression} (inside : OccursIn e right) (op : Comparison)
      (left : Expression) : OccursIn e (.comparison op left right)
  /-- In the left operand of a connective. -/
  | combinedLeft {left : Expression} (inside : OccursIn e left) (op : Connective)
      (right : Expression) : OccursIn e (.logical op left right)
  /-- In the right operand of a connective. -/
  | combinedRight {right : Expression} (inside : OccursIn e right) (op : Connective)
      (left : Expression) : OccursIn e (.logical op left right)
  /-- In the operand of an operator with one operand. -/
  | operand {operand : Expression} (inside : OccursIn e operand) (op : UnaryOperator) :
      OccursIn e (.unary op operand)
  /-- In parentheses. -/
  | nested {inner : Expression} (inside : OccursIn e inner) : OccursIn e (.nested inner)
  /-- In what has a new name. -/
  | aliased {inner : Expression} (inside : OccursIn e inner) (name : String) :
      OccursIn e (.aliased inner name)

mutual

/-- Whatever is listed in the `preorder` of an expression occurs in it. -/
theorem Expression.exists_of_mem_preorder {part : Part} (root : Expression)
    (listed : part ∈ root.preorder) : ∃ e, part = .expression e ∧ e.OccursIn root := by
  rcases root with value | name | name | ⟨subject, key⟩ | ⟨function, distinct, arguments⟩ | _ |
    ⟨op, left, right⟩ | ⟨op, left, right⟩ | ⟨op, operand⟩ | inner | ⟨inner, name⟩
  -- The whole is listed first, whatever it is.
  all_goals
    rw [preorder] at listed
    rcases List.mem_cons.mp listed with rfl | later
    · exact ⟨_, rfl, .whole⟩
  case literal | parameter | «variable» | asterisk => cases later
  case property =>
    obtain ⟨e, rfl, inside⟩ := exists_of_mem_preorder subject later
    exact ⟨e, rfl, inside.subject key⟩
  case call =>
    obtain ⟨argument, among, e, rfl, inside⟩ := exists_of_mem_preorderAll arguments later
    exact ⟨e, rfl, inside.argument among function distinct⟩
  case comparison =>
    rcases List.mem_append.mp later with first | second
    · obtain ⟨e, rfl, inside⟩ := exists_of_mem_preorder left first
      exact ⟨e, rfl, inside.comparedLeft op right⟩
    · obtain ⟨e, rfl, inside⟩ := exists_of_mem_preorder right second
      exact ⟨e, rfl, inside.comparedRight op left⟩
  case logical =>
    rcases List.mem_append.mp later with first | second
    · obtain ⟨e, rfl, inside⟩ := exists_of_mem_preorder left first
      exact ⟨e, rfl, inside.combinedLeft op right⟩
    · obtain ⟨e, rfl, inside⟩ := exists_of_mem_preorder right second
      exact ⟨e, rfl, inside.combinedRight op left⟩
  case unary =>
    obtain ⟨e, rfl, inside⟩ := exists_of_mem_preorder operand later
    exact ⟨e, rfl, inside.operand op⟩
  case nested =>
    obtain ⟨e, rfl, inside⟩ := exists_of_mem_preorder inner later
    exact ⟨e, rfl, inside.nested⟩
  case aliased =>
    obtain ⟨e, rfl, inside⟩ := exists_of_mem_preorder inner later
    exact ⟨e, rfl, inside.aliased name⟩

/-- Whatever is in the `preorderAll` of `roots` occurs in one of them. -/
theorem Expression.exists_of_mem_preorderAll {part : Part} (roots : List Expression)
    (listed : part ∈ Expression.preorderAll roots) :
    ∃ root ∈ roots, ∃ e, part = .expression e ∧ e.OccursIn root := by
  rcases roots with _ | ⟨root, rest⟩
  · cases listed
  · rw [preorderAll] at listed
    rcases List.mem_append.mp listed with first | later
    · exact ⟨root, List.mem_cons_self, exists_of_mem_preorder root first⟩
    · obtain ⟨other, among, found⟩ := exists_of_mem_preorderAll rest later
      exact ⟨other, List.mem_cons_of_mem root among, found⟩

end

namespace Expression

/-- What is listed for one of several expressions is listed for all of them, in `preorderAll`. -/
theorem mem_preorderAll {part : Part} {root : Expression} {roots : List Expression}
    (among : root ∈ roots) (listed : part ∈ root.preorder) : part ∈ preorderAll roots := by
  induction roots with
  | nil => cases among
  | cons first rest ih =>
      rw [preorderAll, List.mem_append]
      rcases List.mem_cons.mp among with rfl | later
      · exact .inl listed
      · exact .inr (ih later)

/-- An expression is listed in its own `preorder`, before its parts. -/
theorem mem_preorder_self (e : Expression) : Part.expression e ∈ e.preorder := by
  cases e <;> simp [preorder]

/-- The expressions in the `preorder` of an expression are those that occur in it, `OccursIn`. -/
theorem mem_preorder_iff {e root : Expression} :
    Part.expression e ∈ root.preorder ↔ e.OccursIn root := by
  constructor
  · intro listed
    obtain ⟨other, same, inside⟩ := root.exists_of_mem_preorder listed
    cases same
    exact inside
  · intro inside
    induction inside with
    | whole => exact e.mem_preorder_self
    | argument _ among _ _ ih => simp [preorder, mem_preorderAll among ih]
    | _ => simp [preorder, *]

end Expression

/-! ## In the places of statements -/

/-- An expression stands in a place of a clause; there is one constructor for each place. -/
inductive Clause.Holds (e : Expression) : Clause → Prop where
  /-- The value of a property in the pattern. -/
  | value {clause : Match} (member : e ∈ clause.pattern.values) : Holds e (.reading clause)
  /-- The condition. -/
  | condition {clause : Match} (own : clause.condition = some e) : Holds e (.reading clause)
  /-- An item of the projection. -/
  | item {clause : Return} (member : e ∈ clause.projection.items) : Holds e (.returning clause)
  /-- What a criterion of the order compares. -/
  | criterion {clause : Return} {items : List SortItem} {item : SortItem}
      (ordered : clause.order = some items) (member : item ∈ items) (own : item.expression = e) :
      Holds e (.returning clause)
  /-- The number of rows left out. -/
  | skip {clause : Return} (own : clause.skip = some e) : Holds e (.returning clause)
  /-- The greatest number of rows. -/
  | limit {clause : Return} (own : clause.limit = some e) : Holds e (.returning clause)

/-- An expression occurs in a statement: it is or is part of (`OccursIn`) what a clause `Holds`. -/
def Expression.OccursInStatement (e : Expression) (s : Statement) : Prop :=
  ∃ clause ∈ s.clauses, ∃ root, clause.Holds root ∧ e.OccursIn root

section Listed

variable {e : Expression}

/-- If the expressions listed for each item occur in its `values`, those listed for all items occur
in all values. -/
theorem mem_flatMap_preorder_iff {α : Type} {preorder : α → List Part}
    {values : α → List Expression}
    (each : ∀ item, Part.expression e ∈ preorder item ↔ ∃ value ∈ values item, e.OccursIn value)
    {items : List α} : Part.expression e ∈ items.flatMap preorder ↔
      ∃ value ∈ items.flatMap values, e.OccursIn value := by
  simp only [List.mem_flatMap, each]
  constructor
  · rintro ⟨item, member, value, among, inside⟩
    exact ⟨value, ⟨item, member, among⟩, inside⟩
  · rintro ⟨value, ⟨item, member, among⟩, inside⟩
    exact ⟨item, member, value, among, inside⟩

/-- The expressions in the `preorder` of some `roots` are those that occur in one of them. -/
theorem Expression.mem_flatMap_preorder {roots : List Expression} :
    Part.expression e ∈ roots.flatMap Expression.preorder ↔ ∃ root ∈ roots, e.OccursIn root := by
  simp only [List.mem_flatMap, Expression.mem_preorder_iff]

/-- The expressions in the `preorder` of a property map occur in its values. -/
theorem PropertyMap.mem_preorder_iff {map : Option PropertyMap} :
    Part.expression e ∈ map.elim [] PropertyMap.preorder ↔
      ∃ value ∈ map.elim [] PropertyMap.values, e.OccursIn value := by
  rcases map with _ | map
  · simp
  · show Part.expression e ∈ map.entries.flatMap _ ↔ ∃ value ∈ map.entries.map _, _
    rw [← List.flatMap_map, Expression.mem_flatMap_preorder]

/-- The expressions in the `preorder` of a node are those that occur in its `values`. -/
theorem Node.mem_preorder_iff {n : Node} :
    Part.expression e ∈ n.preorder ↔ ∃ value ∈ n.values, e.OccursIn value := by
  rw [preorder, List.mem_cons, PropertyMap.mem_preorder_iff, values]
  simp

/-- The expressions in the `preorder` of a relationship are those that occur in its `values`. -/
theorem Relationship.mem_preorder_iff {r : Relationship} :
    Part.expression e ∈ r.preorder ↔ ∃ value ∈ r.values, e.OccursIn value := by
  rw [preorder, List.mem_cons, PropertyMap.mem_preorder_iff, values]
  simp

/-- The expressions in the `preorder` of a step are those that occur in its `values`. -/
theorem Hop.mem_preorder_iff {hop : Hop} :
    Part.expression e ∈ hop.preorder ↔ ∃ value ∈ hop.values, e.OccursIn value := by
  rw [preorder, values, List.mem_append, Relationship.mem_preorder_iff, Node.mem_preorder_iff]
  simp only [List.mem_append, or_and_right, exists_or]

/-- The expressions in the `preorder` of an element are those that occur in its `values`. -/
theorem PatternElement.mem_preorder_iff {element : PatternElement} :
    Part.expression e ∈ element.preorder ↔ ∃ value ∈ element.values, e.OccursIn value := by
  rcases element with single | path
  · exact Node.mem_preorder_iff
  · rw [preorder, values, List.mem_append, Node.mem_preorder_iff,
      mem_flatMap_preorder_iff fun hop => Hop.mem_preorder_iff]
    simp only [List.mem_append, or_and_right, exists_or]

/-- The expressions in the `preorder` of a pattern occur in its `values`. -/
theorem Pattern.mem_preorder_iff {p : Pattern} :
    Part.expression e ∈ p.preorder ↔ ∃ value ∈ p.values, e.OccursIn value := by
  rw [preorder, List.mem_cons, values,
    mem_flatMap_preorder_iff fun element => PatternElement.mem_preorder_iff]
  simp

/-- The expressions in the `preorder` of an expression that may be missing are those that occur in
it, `OccursIn`. -/
theorem Expression.mem_optional_iff {part : Option Expression} :
    Part.expression e ∈ part.elim [] Expression.preorder ↔
      ∃ root, part = some root ∧ e.OccursIn root := by
  rcases part with _ | root
  · simp
  · simp [Expression.mem_preorder_iff]

/-- The expressions in the `preorder` of a reading clause occur in the places that it `Holds`. -/
theorem Match.mem_preorder_iff {clause : Match} :
    Part.expression e ∈ clause.preorder ↔
      ∃ root, (Clause.reading clause).Holds root ∧ e.OccursIn root := by
  have condition : Part.expression e ∈ clause.condition.elim [] conditionPreorder ↔
      ∃ root, clause.condition = some root ∧ e.OccursIn root := by
    rw [← Expression.mem_optional_iff]
    rcases clause.condition with _ | root
    · rfl
    · simp [conditionPreorder]
  rw [preorder, List.mem_cons, List.mem_append, Pattern.mem_preorder_iff, condition]
  constructor
  · rintro (own | ⟨root, member, inside⟩ | ⟨root, own, inside⟩)
    · cases own
    · exact ⟨root, .value member, inside⟩
    · exact ⟨root, .condition own, inside⟩
  · rintro ⟨root, held, inside⟩
    rcases held with member | own
    · exact .inr (.inl ⟨root, member, inside⟩)
    · exact .inr (.inr ⟨root, own, inside⟩)

/-- The expressions in the `preorder` of a projecting clause occur in the places that it `Holds`. -/
theorem Return.mem_preorder_iff {clause : Return} :
    Part.expression e ∈ clause.preorder ↔
      ∃ root, (Clause.returning clause).Holds root ∧ e.OccursIn root := by
  have order : Part.expression e ∈ (clause.order.getD []).flatMap SortItem.preorder ↔
      ∃ items item, clause.order = some items ∧ item ∈ items ∧ e.OccursIn item.expression := by
    rcases clause.order with _ | items
    · simp
    · simp [SortItem.preorder, Expression.mem_preorder_iff]
  rw [preorder, List.mem_cons, List.mem_append, List.mem_append, List.mem_append,
    Expression.mem_flatMap_preorder, order, Expression.mem_optional_iff,
    Expression.mem_optional_iff]
  constructor
  · rintro (own | ⟨root, member, inside⟩ | ⟨items, item, ordered, member, inside⟩ |
      ⟨root, own, inside⟩ | ⟨root, own, inside⟩)
    · cases own
    · exact ⟨root, .item member, inside⟩
    · exact ⟨item.expression, .criterion ordered member rfl, inside⟩
    · exact ⟨root, .skip own, inside⟩
    · exact ⟨root, .limit own, inside⟩
  · rintro ⟨root, held, inside⟩
    rcases held with _ | _ | member | ⟨ordered, member, rfl⟩ | own | own
    · exact .inr (.inl ⟨root, member, inside⟩)
    · exact .inr (.inr (.inl ⟨_, _, ordered, member, inside⟩))
    · exact .inr (.inr (.inr (.inl ⟨root, own, inside⟩)))
    · exact .inr (.inr (.inr (.inr ⟨root, own, inside⟩)))

/-- The expressions in the `preorder` of a statement are those that occur in it,
`OccursInStatement`. -/
theorem Statement.mem_preorder_iff {s : Statement} :
    Part.expression e ∈ s.preorder ↔ e.OccursInStatement s := by
  have clause (clause : Clause) : Part.expression e ∈ clause.preorder ↔
      ∃ root, clause.Holds root ∧ e.OccursIn root := by
    rcases clause with clause | clause
    · exact Match.mem_preorder_iff
    · exact Return.mem_preorder_iff
  simp only [preorder, List.mem_flatMap, clause, Expression.OccursInStatement]

end Listed

/-- A collector chooses from the `preorder` of a tree, part by part; and the `referencedParameters`
of a statement are those that occur in it (`OccursInStatement`), each given once. -/
theorem collecting_goes_through_preorder :
    (∀ (α : Type) (choose : Part → Option α) (s : Statement),
      s.collect choose = s.preorder.filterMap choose) ∧
    (∀ (α : Type) (choose : Part → Option α) (p : Pattern),
      p.collect choose = p.preorder.filterMap choose) ∧
    (∀ (α : Type) (choose : Part → Option α) (e : Expression),
      e.collect choose = e.preorder.filterMap choose) ∧
    ∀ s : Statement, s.referencedParameters.Nodup ∧
      ∀ name, name ∈ s.referencedParameters ↔ (Expression.parameter name).OccursInStatement s := by
  refine ⟨fun α choose s => s.collect_eq choose, fun α choose p => p.collect_eq choose,
    fun α choose e => e.collect_eq choose, fun s => ⟨?_, fun name => ?_⟩⟩
  · exact Dictionary.nodup_names _
  · rw [Statement.mem_referencedParameters, Statement.mem_preorder_iff]

end CypherQuery
