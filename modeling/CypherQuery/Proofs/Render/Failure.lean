import CypherQuery.Proofs.Render.Demand

/-! # Failures of printing

Some errors are about what a statement holds, `RenderError.isOfContent`: an empty name, a literal
that is not finite, a negative number of rows, a pattern without elements. The others are about the
clauses and lists that a statement is made of. This module says where in a statement demands of each
kind come from (`Statement.allDemand`). The main statements are that a well-made statement, whatever
it holds, only has errors of the first kind (`Renderer.render_failsByContent`), and that a number of
rows is only at fault if it is one of the projecting clause (`Renderer.render_ne_negativeCount`). -/

namespace CypherQuery

/-- Whether an error is about what a statement holds, and not about the clauses and lists that it
is made of. -/
def RenderError.isOfContent : RenderError → Bool
  | .emptyPattern | .emptyName _ | .nonFiniteLiteral _ | .negativeCount _ _ => true
  | .missingReadingClause | .misplacedReturn | .emptyProjection | .emptyOrder
  | .unboundParameter _ => false

/-- Whatever makes an attempt fail, it is about content, `isOfContent`. -/
def FailsByContent {α : Type} (attempt : Except RenderError α) : Prop :=
  ∀ failure, attempt = .error failure → failure.isOfContent = true

/-! ## Where demands come from -/

/-- A property `p` of the demands on patterns, names and literals, that is of all but those on items
and on numbers of rows. -/
structure Demand.Common (p : Demand → Prop) : Prop where
  /-- A demand for elements has it. -/
  elements : ∀ pattern, p (.elements pattern)
  /-- A demand for a name has it. -/
  named : ∀ context name, p (.named context name)
  /-- A demand for a finite number has it. -/
  finite : ∀ value, p (.finite value)

section Demands

variable {p : Demand → Prop}

/-- Every demand is for something that has the property `p`. -/
def AllDemand (p : Demand → Prop) (demands : List Demand) : Prop :=
  ∀ demand ∈ demands, p demand

/-- One demand. -/
theorem allDemand_one {demand : Demand} (has : p demand) : AllDemand p [demand] :=
  List.forall_mem_singleton.mpr has

/-- Demands one after the other, `demands ++ others`. -/
theorem AllDemand.append {demands others : List Demand} (one : AllDemand p demands)
    (other : AllDemand p others) : AllDemand p (demands ++ others) :=
  List.forall_mem_append.mpr ⟨one, other⟩

/-- Demands for each item of a list, by `flatMap`. -/
theorem AllDemand.flatMap {α : Type} {demands : α → List Demand}
    (each : ∀ item, AllDemand p (demands item)) (items : List α) :
    AllDemand p (items.flatMap demands) :=
  List.forall_mem_flatMap.mpr fun item _ => each item

/-- Demands for a part that may be missing, `demandsOfPart`. -/
theorem AllDemand.optional {α : Type} {demands : α → List Demand} {part : Option α}
    (each : ∀ own ∈ part, AllDemand p (demands own)) :
    AllDemand p (demandsOfPart demands part) := by
  rcases part with _ | own
  · exact List.forall_mem_nil _
  · exact each own rfl

/-- Demands for names, each of them `named`. -/
theorem AllDemand.names (common : Demand.Common p) (context : NameContext)
    (names : List String) :
    AllDemand p (names.map (.named context)) :=
  List.forall_mem_map.mpr fun name _ => common.named context name

/-- Demands for a name that may be missing. -/
theorem AllDemand.optionalName (common : Demand.Common p) (context : NameContext)
    (name : Option String) :
    AllDemand p (demandsOfPart (fun own => [.named context own]) name) :=
  .optional fun own _ => allDemand_one (common.named context own)

mutual

/-- An expression demands names and finite numbers, so what is `Common` holds of its `demands`. -/
theorem Expression.allDemand (common : Demand.Common p) (e : Expression) :
    AllDemand p e.demands := by
  rcases e with value | name | name | ⟨subject, key⟩ | ⟨function, distinct, arguments⟩ | _ |
    ⟨op, left, right⟩ | ⟨op, left, right⟩ | ⟨op, operand⟩ | inner | ⟨inner, name⟩
  case literal =>
    rcases value with _ | _ | _ | x | _
    case float => exact allDemand_one (common.finite x)
    all_goals exact List.forall_mem_nil _
  case parameter => exact allDemand_one (common.named .parameter name)
  case «variable» => exact allDemand_one (common.named .variable name)
  case asterisk => exact List.forall_mem_nil _
  case property =>
    exact (Expression.allDemand common subject).append (allDemand_one (common.named .property key))
  case call => exact Expression.allDemand_all common arguments
  case comparison =>
    exact (Expression.allDemand common left).append (Expression.allDemand common right)
  case logical =>
    exact (Expression.allDemand common left).append (Expression.allDemand common right)
  case unary => exact Expression.allDemand common operand
  case nested => exact Expression.allDemand common inner
  case aliased =>
    exact (Expression.allDemand common inner).append (allDemand_one (common.named .newName name))

/-- Expressions demand names and finite numbers, so what is `Common` holds of their `demandsAll`. -/
theorem Expression.allDemand_all (common : Demand.Common p) (es : List Expression) :
    AllDemand p (Expression.demandsAll es) := by
  rcases es with _ | ⟨e, rest⟩
  · exact List.forall_mem_nil _
  · exact (Expression.allDemand common e).append (Expression.allDemand_all common rest)

end

/-- What is `Common` holds of the `demands` of a property map: for keys and for what its values
demand. -/
theorem PropertyMap.allDemand (common : Demand.Common p) (map : PropertyMap) :
    AllDemand p map.demands := by
  have each (entry : PropertyEntry) : AllDemand p entry.demands :=
    (allDemand_one (common.named .property entry.key)).append (entry.value.allDemand common)
  exact .flatMap each map.entries

/-- What is `Common` holds of the `demands` of a node: for names and for what its properties
demand. -/
theorem Node.allDemand (common : Demand.Common p) (n : Node) : AllDemand p n.demands :=
  (AllDemand.optionalName common .node n.name).append <|
    (AllDemand.names common .label n.labels).append
      (.optional fun map _ => map.allDemand common)

/-- What is `Common` holds of the `demands` of a step: those of its relationship and of its node. -/
theorem Hop.allDemand (common : Demand.Common p) (hop : Hop) : AllDemand p hop.demands :=
  have relationship : AllDemand p hop.relationship.demands :=
    (AllDemand.optionalName common .relationship hop.relationship.name).append <|
      (AllDemand.names common .relationshipType hop.relationship.types).append
        (.optional fun map _ => map.allDemand common)
  relationship.append (hop.node.allDemand common)

/-- What is `Common` holds of the `demands` of a reading clause: for elements, names and finite
numbers. -/
theorem Match.allDemand (common : Demand.Common p) (m : Match) : AllDemand p m.demands := by
  have each (e : PatternElement) : AllDemand p e.demands := by
    rcases e with single | path
    · exact single.allDemand common
    · exact (path.start.allDemand common).append
        (.flatMap (fun hop => hop.allDemand common) path.hops)
  have pattern : AllDemand p m.pattern.demands :=
    (allDemand_one (common.elements m.pattern)).append (.flatMap each m.pattern.elements)
  exact pattern.append (.optional fun e _ => e.allDemand common)

/-- Besides the one for its items, which is the head of `demands`, a projecting clause makes demands
that have what is `Common`, and the `countDemands` of its numbers of rows. -/
theorem Return.allDemand (common : Demand.Common p) {r : Return}
    (skip : ∀ e ∈ r.skip, AllDemand p (countDemands .skip e))
    (limit : ∀ e ∈ r.limit, AllDemand p (countDemands .limit e)) :
    AllDemand p r.demands.tail :=
  (AllDemand.flatMap (fun e => e.allDemand common) r.projection.items).append <|
    (AllDemand.optional fun items _ =>
      .flatMap (fun item => item.expression.allDemand common) items).append <|
      (AllDemand.optional skip).append (.optional limit)

/-- Besides the items of its projecting clause, a statement demands elements, names, finite numbers,
and what its numbers of rows demand; so what is `Common` and holds of those holds of its
`demands`. -/
theorem Statement.allDemand (common : Demand.Common p) {reading : List Match}
    {returning : Return}
    (skip : ∀ e ∈ returning.skip, AllDemand p (countDemands .skip e))
    (limit : ∀ e ∈ returning.limit, AllDemand p (countDemands .limit e)) :
    AllDemand (fun demand => demand = .items returning.projection ∨ p demand)
      (Statement.ofClauses reading returning).demands := by
  rw [AllDemand, demands, ofClauses, List.flatMap_append, List.flatMap_map,
    List.forall_mem_append, List.forall_mem_flatMap, List.flatMap_singleton]
  exact ⟨fun m _ d mem => .inr (m.allDemand common d mem), List.forall_mem_cons.mpr
    ⟨.inl rfl, fun d mem => .inr (Return.allDemand common skip limit d mem)⟩⟩

end Demands

/-! ## Errors of content -/

/-- A number of rows is a demand on content: its `fault` is one of content. -/
theorem ofContent_count (c : CountClause) (e : Expression) :
    AllDemand (fun demand => demand.fault.isOfContent = true) (countDemands c e) := by
  unfold countDemands
  split
  · exact allDemand_one rfl
  · exact e.allDemand ⟨fun _ => rfl, fun _ _ => rfl, fun _ => rfl⟩

/-- A statement of reading clauses, with a projecting clause behind them that has items and no empty
order, is rendered or `FailsByContent`. -/
theorem Renderer.render_failsByContent (config : RenderConfig) {reading : List Match}
    (nonempty : reading ≠ []) {returning : Return} (items : returning.projection.items ≠ [])
    (criteria : returning.order ≠ some []) :
    FailsByContent (render ⟨config⟩ (.ofClauses reading returning)) := by
  intro failure failed
  obtain ⟨before, demand, after, same, -, fails, rfl⟩ :=
    ((render_hingesOn config nonempty criteria).error_iff failure).mp failed
  -- The items are the only demand that is not about content, and they are there.
  have each : AllDemand (fun d => d = .items returning.projection ∨ d.fault.isOfContent = true)
      (Statement.ofClauses reading returning).demands :=
    Statement.allDemand ⟨fun _ => rfl, fun _ _ => rfl, fun _ => rfl⟩
      (fun e _ => ofContent_count .skip e) fun e _ => ofContent_count .limit e
  rcases each demand (same ▸ List.mem_append_right before List.mem_cons_self) with rfl | content
  · exact absurd items fails
  · exact content

/-! ## Numbers of rows -/

/-- A number of rows is written out as an `integer` literal and not negative. -/
def Expression.IsNaturalCount (e : Expression) : Prop :=
  ∃ value : Int64, e = .literal (.integer value) ∧ 0 ≤ value

/-- A statement whose numbers of rows are not negative, `IsNaturalCount`, does not fail with
`negativeCount`. -/
theorem Renderer.render_ne_negativeCount (config : RenderConfig) {reading : List Match}
    {returning : Return} (criteria : returning.order ≠ some [])
    (skip : ∀ e ∈ returning.skip, e.IsNaturalCount)
    (limit : ∀ e ∈ returning.limit, e.IsNaturalCount) (clause : CountClause) (value : Int64) :
    render ⟨config⟩ (.ofClauses reading returning) ≠ .error (.negativeCount clause value) := by
  intro failed
  rcases reading with _ | ⟨first, others⟩
  · -- Without a reading clause nothing is looked at.
    rw [render_eq_print] at failed
    cases failed
  obtain ⟨before, demand, after, same, -, fails, fault⟩ :=
    ((render_hingesOn config (List.cons_ne_nil first others) criteria).error_iff _).mp failed
  have count (c : CountClause) (e : Expression) (natural : e.IsNaturalCount) :
      AllDemand (fun d => d.Met ∨ ∀ own number, d ≠ .count own number) (countDemands c e) := by
    obtain ⟨number, rfl, least⟩ := natural
    exact allDemand_one (.inl least)
  have each : AllDemand (fun d => d = .items returning.projection ∨ d.Met ∨
      ∀ own number, d ≠ .count own number)
      (Statement.ofClauses (first :: others) returning).demands :=
    Statement.allDemand ⟨fun _ => .inr nofun, fun _ _ => .inr nofun, fun _ => .inr nofun⟩
      (fun e mem => count .skip e (skip e mem)) fun e mem => count .limit e (limit e mem)
  rcases each demand (same ▸ List.mem_append_right before List.mem_cons_self) with
    rfl | met | other
  · cases fault
  · exact fails met
  · cases demand with
    | count own number => exact other own number rfl
    | _ => cases fault

end CypherQuery
