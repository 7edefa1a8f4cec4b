import CypherQuery.Build.Open
import CypherQuery.Proofs.Render.Visitor

/-! # What a text demands

Some pieces of a statement can be held by a tree and yet not be written: an empty name, a number
that is not finite, a negative number of rows, a pattern or a projection without anything in it. The
functions `demands` list what each tree demands, in the order in which it is written. The main
statement, `Renderer.render_hingesOn`, is that a statement whose clauses are in order is printed
exactly if all its demands are met, and that otherwise the first demand that is not met decides the
error: that is what `HingesOn` says of an attempt. -/

namespace CypherQuery

/-- Something that has to hold for a piece of a statement to be written, `Demand.Met`, or it fails
with `Demand.fault`. -/
inductive Demand where
  /-- A pattern has elements. -/
  | elements (pattern : Pattern)
  /-- A projection has items. -/
  | items (projection : Projection)
  /-- A name has characters. -/
  | named (context : NameContext) (name : String)
  /-- A number is finite. -/
  | finite (value : Binary64)
  /-- A number of rows is not negative. -/
  | count (clause : CountClause) (value : Int64)
  deriving Repr

namespace Demand

/-- Whether a demand is met. -/
def Met : Demand → Prop
  | elements pattern => pattern.elements ≠ []
  | items projection => projection.items ≠ []
  | named _ name => name ≠ ""
  | finite value => value.isFinite = true
  | count _ value => 0 ≤ value

/-- The error of a demand that is not met. -/
def fault : Demand → RenderError
  | elements _ => .emptyPattern
  | items _ => .emptyProjection
  | named context _ => .emptyName context
  | finite value => .nonFiniteLiteral value
  | count clause value => .negativeCount clause value

/-- A name meets its demand, `named`, if it is not empty. -/
theorem met_named {context : NameContext} {name : String} :
    (named context name).Met ↔ ¬name.isEmpty = true := by
  simp [Met]

/-- There is only one first demand that is not `Met`. -/
theorem eq_of_first {before other after rest : List Demand} {demand first : Demand}
    (same : before ++ demand :: after = other ++ first :: rest)
    (earlier : ∀ d ∈ before, d.Met) (unmet : ¬demand.Met) (others : ∀ d ∈ other, d.Met)
    (fails : ¬first.Met) : demand = first := by
  induction before generalizing other with
  | nil =>
      rcases other with _ | ⟨head, other⟩
      · exact (List.cons.inj same).1
      · have head_eq := (List.cons.inj same).1
        exact absurd (others head List.mem_cons_self) (head_eq ▸ unmet)
  | cons head before ih =>
      obtain ⟨met, earlier⟩ := List.forall_mem_cons.mp earlier
      rcases other with _ | ⟨own, other⟩
      · have head_eq := (List.cons.inj same).1
        exact absurd met (head_eq ▸ fails)
      · exact ih (List.cons.inj same).2 earlier (List.forall_mem_cons.mp others).2

end Demand

/-! ## Attempts that hinge on demands -/

section Attempts

variable {α β : Type}

/-- An attempt gives a result if all of some demands are `Met`, and otherwise fails with the `fault`
of the first one that is not. -/
inductive HingesOn : List Demand → Except RenderError α → Prop where
  /-- All demands are met. -/
  | met {demands : List Demand} (all : ∀ demand ∈ demands, demand.Met) (result : α) :
      HingesOn demands (.ok result)
  /-- A demand is not met, and all before it are. -/
  | unmet {before : List Demand} {demand : Demand} (after : List Demand)
      (earlier : ∀ d ∈ before, d.Met) (fails : ¬demand.Met) :
      HingesOn (before ++ demand :: after) (.error demand.fault)

/-- What always succeeds, `.ok result`, hinges on no demands. -/
theorem hingesOn_ok (result : α) : HingesOn [] (.ok result) :=
  .met (List.forall_mem_nil _) result

/-- A demand that is looked at first decides if it is not `Met`, and otherwise the rest does. -/
theorem HingesOn.behind {demand : Demand} {demands : List Demand} {attempt : Except RenderError α}
    (fails : ¬demand.Met → attempt = .error demand.fault)
    (rest : demand.Met → HingesOn demands attempt) : HingesOn (demand :: demands) attempt := by
  by_cases first : demand.Met
  · rcases rest first with ⟨all, result⟩ | ⟨after, earlier, unmet⟩
    · exact .met (List.forall_mem_cons.mpr ⟨first, all⟩) result
    · exact .unmet after (List.forall_mem_cons.mpr ⟨first, earlier⟩) unmet
  · rw [fails first]
    exact .unmet demands (List.forall_mem_nil _) first

/-- An attempt that looks at one demand only, and fails by its `fault`, hinges on that one. -/
theorem HingesOn.one {demand : Demand} {attempt : Except RenderError α}
    (fails : ¬demand.Met → attempt = .error demand.fault)
    (succeeds : demand.Met → ∃ result, attempt = .ok result) : HingesOn [demand] attempt := by
  refine .behind fails fun met => ?_
  obtain ⟨result, same⟩ := succeeds met
  rw [same]
  exact hingesOn_ok result

/-- The demands of the first of two attempts come before those of the second: `HingesOn` along
`>>=`. -/
theorem HingesOn.bind {demands others : List Demand} {first : Except RenderError α}
    {next : α → Except RenderError β} (one : HingesOn demands first)
    (other : ∀ result, HingesOn others (next result)) :
    HingesOn (demands ++ others) (first >>= next) := by
  rcases one with ⟨all, result⟩ | ⟨after, earlier, fails⟩
  · have second := other result
    show HingesOn _ (next result)
    generalize next result = attempt at second
    rcases second with ⟨more, last⟩ | ⟨after, earlier, fails⟩
    · exact .met (List.forall_mem_append.mpr ⟨all, more⟩) last
    · rw [← List.append_assoc]
      exact .unmet after (List.forall_mem_append.mpr ⟨all, earlier⟩) fails
  · rw [List.append_assoc, List.cons_append]
    exact .unmet (after ++ others) earlier fails

/-- What is made of a result by `f` demands nothing more. -/
theorem HingesOn.map {demands : List Demand} {attempt : Except RenderError α}
    (hinges : HingesOn demands attempt) (f : α → β) :
    HingesOn demands (attempt >>= fun result => .ok (f result)) := by
  have mapped := hinges.bind fun result => hingesOn_ok (f result)
  rwa [List.append_nil] at mapped

variable {demands : List Demand} {attempt : Except RenderError α}

/-- An attempt that hinges on demands succeeds exactly if they are all `Met`. -/
theorem HingesOn.ok_iff (hinges : HingesOn demands attempt) :
    (∃ result, attempt = .ok result) ↔ ∀ demand ∈ demands, demand.Met := by
  rcases hinges with ⟨all, result⟩ | @⟨before, demand, after, earlier, fails⟩
  · exact ⟨fun _ => all, fun _ => ⟨result, rfl⟩⟩
  · constructor
    · rintro ⟨result, ⟨⟩⟩
    · intro all
      exact absurd (all demand (List.mem_append_right before List.mem_cons_self)) fails

/-- An attempt that hinges on demands fails exactly with the `fault` of the first one that is not
`Met`. -/
theorem HingesOn.error_iff (hinges : HingesOn demands attempt) (failure : RenderError) :
    attempt = .error failure ↔
      ∃ before demand after, demands = before ++ demand :: after ∧ (∀ d ∈ before, d.Met) ∧
        ¬demand.Met ∧ demand.fault = failure := by
  rcases hinges with ⟨all, result⟩ | @⟨before, demand, after, earlier, fails⟩
  · constructor
    · rintro ⟨⟩
    · rintro ⟨before, demand, after, rfl, -, fails, -⟩
      exact absurd (all demand (List.mem_append_right before List.mem_cons_self)) fails
  · constructor
    · rintro ⟨⟩
      exact ⟨before, demand, after, rfl, earlier, fails, rfl⟩
    · rintro ⟨other, first, rest, same, others, unmet, rfl⟩
      rw [Demand.eq_of_first same earlier fails others unmet]

end Attempts

/-! ## The demands of a tree -/

/-- A literal demands, of a floating-point number only, that it is finite. -/
def Literal.demands : Literal → List Demand
  | .float value => [.finite value]
  | .null | .boolean _ | .integer _ | .string _ => []

namespace Expression

mutual

/-- The demands of an expression: the subject of a property comes before its key, and what has a
new name before that name. -/
def demands : Expression → List Demand
  | .literal value => value.demands
  | .parameter name => [.named .parameter name]
  | .variable name => [.named .variable name]
  | .property subject key => subject.demands ++ [.named .property key]
  | .call _ _ arguments => demandsAll arguments
  | .asterisk => []
  | .comparison _ left right | .logical _ left right => left.demands ++ right.demands
  | .unary _ operand => operand.demands
  | .nested inner => inner.demands
  | .aliased inner name => inner.demands ++ [.named .newName name]

/-- The demands of expressions one after the other: `demands` of each. -/
def demandsAll : List Expression → List Demand
  | [] => []
  | e :: rest => e.demands ++ demandsAll rest

end

end Expression

/-- An entry demands its key, as `named`, then what its value demands. -/
def PropertyEntry.demands (entry : PropertyEntry) : List Demand :=
  .named .property entry.key :: entry.value.demands

/-- The `demands` of the entries of a property map. -/
def PropertyMap.demands (map : PropertyMap) : List Demand :=
  map.entries.flatMap PropertyEntry.demands

/-- The demands of a part that may be missing; there are none for `none`. -/
def demandsOfPart {α : Type} (demands : α → List Demand) (part : Option α) : List Demand :=
  part.elim [] demands

/-- A node demands its variable, then its labels, then its properties. -/
def Node.demands (node : Node) : List Demand :=
  demandsOfPart (fun name => [.named .node name]) node.name ++
    (node.labels.map (.named .label) ++ demandsOfPart PropertyMap.demands node.properties)

/-- A relationship demands its variable, then its types, then its properties. -/
def Relationship.demands (relationship : Relationship) : List Demand :=
  demandsOfPart (fun name => [.named .relationship name]) relationship.name ++
    (relationship.types.map (.named .relationshipType) ++
      demandsOfPart PropertyMap.demands relationship.properties)

/-- A step demands what its relationship demands, then what its node does. -/
def Hop.demands (hop : Hop) : List Demand :=
  hop.relationship.demands ++ hop.node.demands

/-- The demands of an element from left to right. -/
def PatternElement.demands : PatternElement → List Demand
  | .node single => single.demands
  | .chain path => path.start.demands ++ path.hops.flatMap Hop.demands

/-- A pattern demands `elements`, then what they demand. -/
def Pattern.demands (pattern : Pattern) : List Demand :=
  .elements pattern :: pattern.elements.flatMap PatternElement.demands

/-- A reading clause demands what its pattern demands, then what its condition does. -/
def Match.demands (clause : Match) : List Demand :=
  clause.pattern.demands ++ demandsOfPart Expression.demands clause.condition

/-- A number of rows must not be negative, `Demand.count`, if it is written out as an integer
literal. -/
def countDemands (clause : CountClause) : Expression → List Demand
  | .literal (.integer value) => [.count clause value]
  | e => e.demands

/-- A projecting clause demands `items`, then what they demand, then what its order and its window
do. -/
def Return.demands (clause : Return) : List Demand :=
  .items clause.projection ::
    (clause.projection.items.flatMap Expression.demands ++
      (demandsOfPart (List.flatMap fun item => item.expression.demands) clause.order ++
        (demandsOfPart (countDemands .skip) clause.skip ++
          demandsOfPart (countDemands .limit) clause.limit)))

/-- The `demands` of the clause that it is. -/
def Clause.demands : Clause → List Demand
  | .reading clause => clause.demands
  | .returning clause => clause.demands

/-- The `demands` of each clause of a statement. -/
def Statement.demands (s : Statement) : List Demand :=
  s.clauses.flatMap Clause.demands

/-! ## Printing hinges on the demands

Each function of `Print` hinges on the `demands` of the tree that it prints. -/

namespace Print

variable {α : Type} (config : RenderConfig)

/-- A name is written, by `nameText`, if it has characters. -/
theorem name_hingesOn (context : NameContext) (name : String) :
    HingesOn [.named context name] (nameText config context name) := by
  rw [nameText]
  refine .one (fun empty => if_pos ?_) fun nonempty => ?_
  · exact Decidable.of_not_not (mt Demand.met_named.mpr empty)
  · rw [if_neg (Demand.met_named.mp nonempty)]
    split <;> exact ⟨_, rfl⟩

/-- A parameter is written, by `parameterText`, if its name has characters. -/
theorem parameter_hingesOn (name : String) :
    HingesOn [.named .parameter name] (parameterText name) := by
  rw [parameterText]
  refine .one (fun empty => if_pos ?_) fun nonempty => ?_
  · exact Decidable.of_not_not (mt Demand.met_named.mpr empty)
  · rw [if_neg (Demand.met_named.mp nonempty)]
    split <;> exact ⟨_, rfl⟩

/-- A literal is written, by `literalText`, if it is no number that is not finite. -/
theorem literal_hingesOn (value : Literal) : HingesOn value.demands (literalText value) := by
  rcases value with _ | (_ | _) | _ | x | _
  case float =>
    rw [literalText]
    exact .one (fun infinite => if_neg infinite) fun finite => ⟨x.text, if_pos finite⟩
  all_goals exact hingesOn_ok _

variable {print : α → Rendered} {demands : α → List Demand}

/-- A part that may be missing hinges on `demandsOfPart`. -/
theorem optional_hingesOn (each : ∀ part, HingesOn (demands part) (print part)) (part : Option α) :
    HingesOn (demandsOfPart demands part) (optional print part) := by
  rcases part with _ | part
  · exact hingesOn_ok []
  · exact each part

/-- The items of a list, `separated`, are looked at one after the other. -/
theorem separated_hingesOn (separator : List Char) {items : List α}
    (each : ∀ item ∈ items, HingesOn (demands item) (print item)) :
    HingesOn (items.flatMap demands) (separated separator print items) := by
  induction items with
  | nil => exact hingesOn_ok []
  | cons item rest ih =>
      obtain ⟨first, others⟩ := List.forall_mem_cons.mp each
      rw [List.flatMap_cons]
      rcases rest with _ | ⟨next, rest⟩
      · rw [List.flatMap_nil, List.append_nil]
        exact first
      · exact first.bind fun _ => (ih others).map _

/-- Names behind marks, `marked`, are looked at one after the other. -/
theorem marked_hingesOn (context : NameContext) (first next : Char) (names : List String) :
    HingesOn (names.map (.named context)) (marked config context first next names) := by
  induction names generalizing first with
  | nil => exact hingesOn_ok []
  | cons name rest ih =>
      exact (name_hingesOn config context name).bind fun _ => (ih next).map _

/-! ### Expressions -/

mutual

/-- An expression hinges on the names and numbers in it, its `demands`. -/
theorem expression_hingesOn (e : Expression) : HingesOn e.demands (expression config e) := by
  rcases e with value | name | name | ⟨subject, key⟩ | ⟨function, distinct, arguments⟩ | _ |
    ⟨op, left, right⟩ | ⟨op, left, right⟩ | ⟨op, operand⟩ | inner | ⟨inner, name⟩
  case literal => exact literal_hingesOn value
  case parameter => exact parameter_hingesOn name
  case «variable» => exact name_hingesOn config .variable name
  case asterisk => exact hingesOn_ok ['*']
  case property =>
    exact (expression_hingesOn subject).bind fun _ => (name_hingesOn config .property key).map _
  case call => exact (expressions_hingesOn arguments).map _
  case comparison =>
    exact (expression_hingesOn left).bind fun _ => (expression_hingesOn right).map _
  case logical =>
    exact (expression_hingesOn left).bind fun _ => (expression_hingesOn right).map _
  case unary => exact (expression_hingesOn operand).map _
  case nested => exact (expression_hingesOn inner).map _
  case aliased =>
    exact (expression_hingesOn inner).bind fun _ => (name_hingesOn config .newName name).map _

/-- Arguments are looked at one after the other: they hinge on `demandsAll`. -/
theorem expressions_hingesOn (arguments : List Expression) :
    HingesOn (Expression.demandsAll arguments) (expressions config arguments) := by
  rcases arguments with _ | ⟨e, _ | ⟨next, rest⟩⟩
  · exact hingesOn_ok []
  · rw [Expression.demandsAll, Expression.demandsAll, List.append_nil]
    exact expression_hingesOn e
  · exact (expression_hingesOn e).bind fun _ => (expressions_hingesOn (next :: rest)).map _

end

/-! ### Patterns -/

/-- A property map hinges on its keys and values, its `demands`. -/
theorem properties_hingesOn (follows : Bool) (map : PropertyMap) :
    HingesOn map.demands (properties config follows map) := by
  have each (e : PropertyEntry) : HingesOn e.demands (entry config e) :=
    (name_hingesOn config .property e.key).bind fun _ => (expression_hingesOn config e.value).map _
  exact (separated_hingesOn commaText fun e _ => each e).map _

/-- A node hinges on its `demands`, those of its names and of its property map. -/
theorem node_hingesOn (n : Node) : HingesOn n.demands (node config n) :=
  (optional_hingesOn (name_hingesOn config .node) n.name).bind fun _ =>
    (marked_hingesOn config .label ':' ':' n.labels).bind fun _ =>
      (optional_hingesOn (properties_hingesOn config _) n.properties).map _

/-- A relationship hinges on its `demands`, those of its names and of its property map. -/
theorem relationship_hingesOn (r : Relationship) :
    HingesOn r.demands (relationship config r) := by
  have inside : HingesOn r.demands (details config r) :=
    (optional_hingesOn (name_hingesOn config .relationship) r.name).bind fun _ =>
      (marked_hingesOn config .relationshipType ':' '|' r.types).bind fun _ =>
        (optional_hingesOn (properties_hingesOn config _) r.properties).map _
  rw [relationship]
  by_cases bare : r.isBare = true
  · rw [if_pos bare]
    obtain ⟨name, types, map⟩ := Relationship.isBare_iff.mp bare
    have nothing : r.demands = [] := by
      rw [Relationship.demands, name, types, map]
      rfl
    rw [nothing]
    exact hingesOn_ok _
  · rw [if_neg bare]
    exact inside.map _

/-- The steps of a path are looked at one after the other: they hinge on the `demands` of each. -/
theorem hops_hingesOn (steps : List Hop) :
    HingesOn (steps.flatMap Hop.demands) (hops config steps) := by
  induction steps with
  | nil => exact hingesOn_ok []
  | cons hop rest ih =>
      rw [List.flatMap_cons, Hop.demands, List.append_assoc]
      exact (relationship_hingesOn config hop.relationship).bind fun _ =>
        (node_hingesOn config hop.node).bind fun _ => ih.map _

/-- An element hinges on its `demands`, those of its nodes and relationships. -/
theorem element_hingesOn (e : PatternElement) : HingesOn e.demands (element config e) := by
  rcases e with single | path
  · exact node_hingesOn config single
  · exact (node_hingesOn config path.start).bind fun _ => (hops_hingesOn config path.hops).map _

/-- A pattern hinges on its `demands`: that it has elements, and those of the elements. -/
theorem pattern_hingesOn (p : Pattern) : HingesOn p.demands (pattern config p) := by
  rw [pattern]
  refine .behind (fun empty => if_pos ?_) fun nonempty => ?_
  · exact List.isEmpty_iff.mpr (Decidable.of_not_not empty)
  · rw [if_neg (mt List.isEmpty_iff.mp nonempty)]
    exact separated_hingesOn commaText fun e _ => element_hingesOn config e

/-! ### Clauses -/

/-- A reading clause hinges on its `demands`: those of its pattern, then those of its condition. -/
theorem reading_hingesOn (m : Match) : HingesOn m.demands (reading config m) := by
  have each (e : Expression) : HingesOn e.demands (condition config e) :=
    (expression_hingesOn config e).map _
  exact (pattern_hingesOn config m.pattern).bind fun _ =>
    (optional_hingesOn each m.condition).map _

/-- A projection hinges on having items, `Demand.items`, and on the demands of the items. -/
theorem projection_hingesOn (p : Projection) :
    HingesOn (.items p :: p.items.flatMap Expression.demands) (projection config p) := by
  rw [projection]
  refine .behind (fun empty => if_pos ?_) fun nonempty => ?_
  · exact List.isEmpty_iff.mpr (Decidable.of_not_not empty)
  · rw [if_neg (mt List.isEmpty_iff.mp nonempty)]
    exact (separated_hingesOn commaText fun e _ => expression_hingesOn config e).map _

/-- An order with criteria hinges on the `demands` of their expressions; one without would fail for
another reason. -/
theorem order_hingesOn {items : List SortItem} (nonempty : items ≠ []) :
    HingesOn (items.flatMap fun item => item.expression.demands) (order config items) := by
  rw [order, if_neg fun empty => nonempty (List.isEmpty_iff.mp empty)]
  have each (item : SortItem) : HingesOn item.expression.demands (sortItem config item) :=
    (expression_hingesOn config item.expression).map _
  exact (separated_hingesOn commaText fun item _ => each item).map _

/-- A number of rows is checked by `checkCount` before anything of it is written. -/
theorem count_hingesOn (c : CountClause) (e : Expression) :
    HingesOn (countDemands c e) (count config c e) := by
  rw [count]
  unfold countDemands
  split
  case h_1 value =>
    rw [checkCount]
    refine .one (fun negative => ?_) fun natural => ?_
    · rw [if_pos (Int64.not_le.mp negative)]
      rfl
    · rw [if_neg (Int64.not_lt.mpr natural)]
      exact ⟨_, rfl⟩
  case h_2 other =>
    have unchecked : checkCount c e = .ok () := by
      unfold checkCount
      split
      case h_1 value => exact (other value rfl).elim
      case h_2 => rfl
    rw [unchecked]
    exact (expression_hingesOn config e).map _

/-- A projecting clause without an empty order hinges on its items, its order and its window, its
`demands`. -/
theorem returning_hingesOn {r : Return} (criteria : r.order ≠ some []) :
    HingesOn r.demands (returning config r) := by
  have sorted : HingesOn (demandsOfPart (List.flatMap fun item => item.expression.demands) r.order)
      (optional (order config) r.order) := by
    rcases same : r.order with _ | list
    · exact hingesOn_ok []
    · refine order_hingesOn config fun empty => criteria ?_
      rw [same, empty]
  exact (projection_hingesOn config r.projection).bind fun _ => sorted.bind fun _ =>
    (optional_hingesOn (count_hingesOn config .skip) r.skip).bind fun _ =>
      (optional_hingesOn (count_hingesOn config .limit) r.limit).map _

end Print

/-! ## Statements -/

namespace Statement

variable {reading : List Match} {returning : Return}

/-- The `readingClauses` of a statement are those that it is made of by `ofClauses`. -/
theorem readingClauses_ofClauses (reading : List Match) (returning : Return) :
    (ofClauses reading returning).readingClauses = reading := by
  rw [readingClauses, ofClauses, List.filterMap_append, List.filterMap_map]
  simp [Function.comp_def, Clause.reading?]

/-- Reading clauses with a projecting clause behind them are in order, `validate`. -/
theorem validate_ofClauses (nonempty : reading ≠ []) :
    (ofClauses reading returning).validate = .ok () := by
  rw [validate, readingClauses_ofClauses,
    if_neg fun empty => nonempty (List.isEmpty_iff.mp empty)]
  simp [ofClauses, Clause.returning?]

end Statement

/-- A statement of reading clauses, with a projecting clause behind them that has no empty order,
hinges on its clauses, its `demands`. -/
theorem Print.statement_hingesOn (config : RenderConfig) {reading : List Match}
    (nonempty : reading ≠ []) {returning : Return} (criteria : returning.order ≠ some []) :
    HingesOn (Statement.ofClauses reading returning).demands
      (statement config (.ofClauses reading returning)) := by
  have each : ∀ c ∈ (Statement.ofClauses reading returning).clauses,
      HingesOn c.demands (clause config c) := by
    rw [Statement.ofClauses, List.forall_mem_append, List.forall_mem_map, List.forall_mem_singleton]
    exact ⟨fun m _ => reading_hingesOn config m, returning_hingesOn config criteria⟩
  rw [statement, Statement.validate_ofClauses nonempty]
  exact separated_hingesOn config.clauseSeparator each

/-- A statement of reading clauses, with a projecting clause behind them that has no empty order, is
rendered if its `demands` are met, and the first one that is not decides the error. -/
theorem Renderer.render_hingesOn (config : RenderConfig) {reading : List Match}
    (nonempty : reading ≠ []) {returning : Return} (criteria : returning.order ≠ some []) :
    HingesOn (Statement.ofClauses reading returning).demands
      (render ⟨config⟩ (.ofClauses reading returning)) := by
  rw [render_eq_print]
  exact (Print.statement_hingesOn config nonempty criteria).map String.ofList

end CypherQuery
