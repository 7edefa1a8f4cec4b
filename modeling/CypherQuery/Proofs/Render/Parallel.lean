import CypherQuery.Proofs.Render.Quotation
import CypherQuery.Traversal.Collect

/-! # Pieces under two options

The pieces of a tree under two options run in parallel, `Parallel`: at each place both have the same
piece, the same name, the same reference to a parameter, or what stands between two clauses. The
parts of the tree in preorder run along with them, so that a reference to a parameter among the
pieces is met together with the part that it is written for. There is one closure lemma for each way
of putting pieces together, and with them one lemma for each kind of tree, up to
`parallel_statement`. -/

namespace CypherQuery

/-- The name of the parameter that a token refers to, if it is a `parameter`. -/
def Token.parameter? : Token → Option String
  | .parameter own => some own
  | _ => none

/-- The `parameter?` of a token is a name exactly if the token is that reference. -/
theorem Token.parameter?_eq_some_iff {token : Token} {name : String} :
    token.parameter? = some name ↔ token = .parameter name := by
  cases token with
  | parameter own => simp [parameter?]
  | _ => exact ⟨nofun, nofun⟩

/-- The name of the parameter that a piece refers to, by its `token?`. -/
def Piece.parameter? (part : Piece) : Option String :=
  part.token?.bind Token.parameter?

/-- Pieces under `config`, their twins under `other`, and the parts that they are written for. -/
inductive Parallel (config other : RenderConfig) :
    List Piece → List Piece → List Part → Prop where
  /-- No pieces. -/
  | nil : Parallel config other [] [] []
  /-- A piece that is the same under all options and refers to no parameter. -/
  | fixed {part : Piece} {parts twins : List Piece} {listed : List Part}
      (plain : part.parameter? = none) (rest : Parallel config other parts twins listed) :
      Parallel config other (part :: parts) (part :: twins) listed
  /-- What stands between two clauses. -/
  | gap {parts twins : List Piece} {listed : List Part}
      (rest : Parallel config other parts twins listed) :
      Parallel config other (.blank config.clauseSeparator :: parts)
        (.blank other.clauseSeparator :: twins) listed
  /-- A name, with or without quotation. -/
  | name (own : String) {parts twins : List Piece} {listed : List Part}
      (rest : Parallel config other parts twins listed) :
      Parallel config other (Spelling.name config own :: parts)
        (Spelling.name other own :: twins) listed
  /-- A part that is no reference to a parameter begins. -/
  | listed {part : Part} {parts twins : List Piece} {listed : List Part}
      (plain : part.parameterName? = none) (rest : Parallel config other parts twins listed) :
      Parallel config other parts twins (part :: listed)
  /-- A reference to a parameter, and the part that it is written for. -/
  | parameter (own : String) {parts twins : List Piece} {listed : List Part}
      (rest : Parallel config other parts twins listed) :
      Parallel config other (Spelling.parameter own ++ parts) (Spelling.parameter own ++ twins)
        (.expression (.parameter own) :: listed)

namespace Parallel

variable {config other : RenderConfig} {parts twins before more moreTwins : List Piece}
  {listed others : List Part}

/-- What is written one after the other runs in parallel: `Parallel` on appends. -/
theorem append (first : Parallel config other parts twins listed)
    (second : Parallel config other more moreTwins others) :
    Parallel config other (parts ++ more) (twins ++ moreTwins) (listed ++ others) := by
  induction first with
  | nil => exact second
  | fixed plain _ ih => exact .fixed plain ih
  | gap _ ih => exact .gap ih
  | name own _ ih => exact .name own ih
  | listed plain _ ih => exact .listed plain ih
  | parameter own _ ih =>
      rw [List.append_assoc, List.append_assoc]
      exact .parameter own ih

/-- Pieces without a `parameter?` in front of others keep them `Parallel`. -/
theorem behindFixed (plain : ∀ part ∈ before, part.parameter? = none)
    (rest : Parallel config other parts twins listed) :
    Parallel config other (before ++ parts) (before ++ twins) listed := by
  induction before with
  | nil => exact rest
  | cons part others ih =>
      obtain ⟨first, later⟩ := List.forall_mem_cons.mp plain
      exact .fixed first (ih later)

/-- Pieces without a `parameter?` are `Parallel` with themselves. -/
theorem ofFixed (plain : ∀ part ∈ parts, part.parameter? = none) :
    Parallel config other parts parts [] := by
  have alone := behindFixed plain (nil : Parallel config other [] [] [])
  rwa [List.append_nil] at alone

/-- Pieces for which no part begins, behind others: the parts that are `listed` stay the same. -/
theorem beforeUnlisted (first : Parallel config other parts twins listed)
    (second : Parallel config other more moreTwins []) :
    Parallel config other (parts ++ more) (twins ++ moreTwins) listed := by
  have whole := first.append second
  rwa [List.append_nil] at whole

/-- Items with a separator between them, `Spelling.separated`, are `Parallel` if each is. -/
theorem separated {α : Type} {spell twin : α → List Piece} {list : α → List Part}
    (between : Parallel config other more moreTwins []) {items : List α}
    (each : ∀ item ∈ items, Parallel config other (spell item) (twin item) (list item)) :
    Parallel config other (Spelling.separated more spell items)
      (Spelling.separated moreTwins twin items) (items.flatMap list) := by
  induction items with
  | nil => exact nil
  | cons item rest ih =>
      obtain ⟨first, later⟩ := List.forall_mem_cons.mp each
      rw [List.flatMap_cons]
      cases rest with
      | nil =>
          rw [List.flatMap_nil, List.append_nil]
          exact first
      | cons next rest => exact first.append (between.append (ih later))

/-- A part that may be missing, `Spelling.optional`, is `Parallel` if each is. -/
theorem optional {α : Type} {spell twin : α → List Piece} {list : α → List Part}
    (each : ∀ item, Parallel config other (spell item) (twin item) (list item))
    (item : Option α) :
    Parallel config other (Spelling.optional spell item) (Spelling.optional twin item)
      (item.elim [] list) := by
  cases item with
  | none => exact nil
  | some item => exact each item

/-- A name that may be missing is `Parallel` with itself under other options. -/
theorem optionalName (own : Option String) :
    Parallel config other (Spelling.optional (fun own => [Spelling.name config own]) own)
      (Spelling.optional (fun own => [Spelling.name other own]) own) [] := by
  cases own with
  | none => exact nil
  | some own => exact .name own .nil

/-- Names behind marks, `Spelling.marked`, are `Parallel` with themselves under other options. -/
theorem marked {first next : Piece} (firstPlain : first.parameter? = none)
    (nextPlain : next.parameter? = none) (names : List String) :
    Parallel config other (Spelling.marked config first next names)
      (Spelling.marked other first next names) [] := by
  induction names generalizing first with
  | nil => exact nil
  | cons own rest ih => exact .fixed firstPlain (.name own (ih nextPlain))

end Parallel

/-! ## Pieces that refer to no parameter -/

section Plain

open Spelling

/-- The pieces of an integer, `signedPieces`, refer to no parameter. -/
theorem parameter?_signedPieces (n : Int) :
    ∀ part ∈ signedPieces n, part.parameter? = none := by
  have number : (Scan.integer (digits n.natAbs)).parameter? = none := by
    rw [Scan.integer]
    split
    · rfl
    · rfl
  exact forall_mem_signedPieces rfl number

/-- The pieces of a `literal` refer to no parameter. -/
theorem parameter?_literal (value : Literal) :
    ∀ part ∈ literal value, part.parameter? = none := by
  cases value with
  | null => decide
  | boolean value => cases value <;> decide
  | integer value => exact parameter?_signedPieces value.toInt
  | string text => exact List.forall_mem_singleton.mpr rfl
  | float x =>
      have number (found : Token) (text : List Char) (isNumber : found.isNumber = true) :
          (Piece.token found text).parameter? = none := by
        rcases found.integer_or_float isNumber with ⟨n, rfl⟩ | ⟨y, rfl⟩
        · rfl
        · rfl
      refine x.forall_mem_textPieces rfl number ?_
      rw [Decimal.exponentPieces]
      split
      · exact List.forall_mem_cons.mpr ⟨rfl, parameter?_signedPieces _⟩
      · exact List.forall_mem_singleton.mpr rfl

/-- The pieces of an operator, `Spelling.operator`, refer to no parameter. -/
theorem parameter?_operator (op : Operator) : ∀ part ∈ operator op, part.parameter? = none := by
  cases op with
  | comparison op => cases op <;> decide
  | logical op => cases op <;> decide
  | unary op => cases op <;> decide

/-- The pieces of `distinctness`, the word that leaves out equal values, refer to no parameter. -/
theorem parameter?_distinctness (distinct : Bool) :
    ∀ part ∈ distinctness distinct, part.parameter? = none := by
  cases distinct <;> decide

end Plain

/-! ## Trees -/

section Trees

variable (config other : RenderConfig)

open Spelling

mutual

/-- The pieces of an expression run in parallel with its `preorder`, by induction on the
expression. -/
theorem parallel_expression (e : Expression) :
    Parallel config other (expression config e) (expression other e) e.preorder := by
  match e with
  | .literal value => exact .listed rfl (.ofFixed (parameter?_literal value))
  | .parameter own =>
      have nothing : Parallel config other [] [] [] := .nil
      have alone := Parallel.parameter own nothing
      rwa [List.append_nil] at alone
  | .variable own => exact .listed rfl (.name own .nil)
  | .asterisk => exact .listed rfl (.fixed rfl .nil)
  | .property subject key =>
      exact .listed rfl ((parallel_expression subject).beforeUnlisted (.fixed rfl (.name key .nil)))
  | .call function distinct arguments =>
      refine .listed rfl (.fixed rfl (.fixed rfl ?_))
      refine .behindFixed (parameter?_distinctness distinct) ?_
      exact (parallel_expressions arguments).beforeUnlisted (.fixed rfl .nil)
  | .comparison op left right | .logical op left right =>
      refine .listed rfl ((parallel_expression left).append ?_)
      exact .behindFixed (parameter?_operator _) (parallel_expression right)
  | .unary op operand =>
      rw [expression, expression]
      by_cases precedes : op.precedesOperand = true
      · rw [if_pos precedes, if_pos precedes]
        exact .listed rfl (.behindFixed (parameter?_operator _) (parallel_expression operand))
      · rw [if_neg precedes, if_neg precedes]
        exact .listed rfl
          ((parallel_expression operand).beforeUnlisted (.ofFixed (parameter?_operator _)))
  | .nested inner =>
      refine .listed rfl (.fixed rfl ?_)
      exact (parallel_expression inner).beforeUnlisted (.fixed rfl .nil)
  | .aliased inner own =>
      refine .listed rfl ((parallel_expression inner).beforeUnlisted ?_)
      exact .fixed rfl (.behindFixed (by decide) (.fixed rfl (.name own .nil)))

/-- The pieces of arguments are `Parallel`, with their `preorderAll`. -/
theorem parallel_expressions (es : List Expression) :
    Parallel config other (expressions config es) (expressions other es)
      (Expression.preorderAll es) := by
  match es with
  | [] => exact .nil
  | [e] =>
      rw [Expression.preorderAll, Expression.preorderAll, List.append_nil]
      exact parallel_expression e
  | e :: next :: rest =>
      refine (parallel_expression e).append ?_
      exact .behindFixed (by decide) (parallel_expressions (next :: rest))

end

/-- The pieces of a property map are `Parallel`, with its `preorder`. -/
theorem parallel_properties (follows : Bool) (map : PropertyMap) :
    Parallel config other (properties config follows map) (properties other follows map)
      map.preorder := by
  have entries (e : PropertyEntry) :
      Parallel config other (entry config e) (entry other e) e.value.preorder :=
    .name e.key (.fixed rfl (.fixed rfl (parallel_expression config other e.value)))
  have list := Parallel.separated (.ofFixed (by decide : ∀ part ∈ comma, part.parameter? = none))
    fun e (_ : e ∈ map.entries) => entries e
  refine .behindFixed (by cases follows <;> decide) (.fixed rfl ?_)
  exact list.beforeUnlisted (.fixed rfl .nil)

/-- The names and the property map of a node or a relationship are `Parallel` between marks that
refer to no parameter. -/
theorem parallel_inside (own : Option String) (names : List String) (map : Option PropertyMap)
    (follows : Bool) {opens first next closes : Piece}
    (plain : ∀ mark ∈ [opens, first, next, closes], mark.parameter? = none) :
    Parallel config other
      (opens :: (optional (fun own => [name config own]) own ++
        (marked config first next names ++
          (optional (properties config follows) map ++ [closes]))))
      (opens :: (optional (fun own => [name other own]) own ++
        (marked other first next names ++
          (optional (properties other follows) map ++ [closes]))))
      (map.elim [] PropertyMap.preorder) := by
  obtain ⟨opensPlain, rest⟩ := List.forall_mem_cons.mp plain
  obtain ⟨firstPlain, rest⟩ := List.forall_mem_cons.mp rest
  obtain ⟨nextPlain, closesPlain⟩ := List.forall_mem_cons.mp rest
  refine .fixed opensPlain ((Parallel.optionalName own).append ?_)
  refine (Parallel.marked firstPlain nextPlain names).append ?_
  exact (Parallel.optional (parallel_properties config other follows) map).beforeUnlisted
    (.ofFixed closesPlain)

/-- The pieces of a node are `Parallel`, with its `preorder`. -/
theorem parallel_node (n : Node) :
    Parallel config other (node config n) (node other n) n.preorder :=
  .listed rfl (parallel_inside config other n.name n.labels n.properties _ (by decide))

/-- The pieces of a relationship are `Parallel`, with its `preorder`. -/
theorem parallel_relationship (r : Relationship) :
    Parallel config other (relationship config r) (relationship other r) r.preorder := by
  have opens : (opening r.direction).parameter? = none := by cases r.direction <;> rfl
  have closes : (closing r.direction).parameter? = none := by cases r.direction <;> rfl
  refine .listed rfl (.fixed opens (Parallel.beforeUnlisted ?_ (.fixed closes .nil)))
  by_cases bare : r.isBare = true
  · obtain ⟨-, -, noMap⟩ := Relationship.isBare_iff.mp bare
    rw [if_pos bare, if_pos bare, noMap]
    exact .nil
  · rw [if_neg bare, if_neg bare]
    exact parallel_inside config other r.name r.types r.properties _ (by decide)

/-- The pieces of the steps of a path are `Parallel`, with the `preorder` of each. -/
theorem parallel_hops (steps : List Hop) :
    Parallel config other (hops config steps) (hops other steps)
      (steps.flatMap Hop.preorder) := by
  induction steps with
  | nil => exact .nil
  | cons hop rest ih =>
      rw [List.flatMap_cons, Hop.preorder, List.append_assoc]
      exact (parallel_relationship config other hop.relationship).append
        ((parallel_node config other hop.node).append ih)

/-- The pieces of a pattern are `Parallel`, with its `preorder`. -/
theorem parallel_pattern (p : Pattern) :
    Parallel config other (pattern config p) (pattern other p) p.preorder := by
  have elements (e : PatternElement) :
      Parallel config other (element config e) (element other e) e.preorder := by
    cases e with
    | node single => exact parallel_node config other single
    | chain path =>
        exact (parallel_node config other path.start).append
          (parallel_hops config other path.hops)
  exact .listed rfl (.separated (.ofFixed (by decide)) fun e _ => elements e)

/-- The pieces of a reading clause are `Parallel`, with its `preorder`. -/
theorem parallel_reading (clause : Match) :
    Parallel config other (reading config clause) (reading other clause) clause.preorder := by
  have filter (e : Expression) :
      Parallel config other (condition config e) (condition other e) (conditionPreorder e) :=
    .listed rfl (.behindFixed (by decide) (parallel_expression config other e))
  have keyword : ∀ part ∈ phrase (if clause.optional then ["OPTIONAL", "MATCH"] else ["MATCH"])
      ++ [space], part.parameter? = none := by
    cases clause.optional <;> decide
  refine .listed rfl (.behindFixed keyword ?_)
  exact (parallel_pattern config other clause.pattern).append (.optional filter clause.condition)

/-- The pieces of a projecting clause are `Parallel`, with its `preorder`. -/
theorem parallel_returning (clause : Return) :
    Parallel config other (returning config clause) (returning other clause)
      clause.preorder := by
  have comma : Parallel config other comma comma [] := .ofFixed (by decide)
  have items : Parallel config other (projection config clause.projection)
      (projection other clause.projection)
      (clause.projection.items.flatMap Expression.preorder) :=
    .behindFixed (parameter?_distinctness clause.projection.distinct)
      (.separated comma fun e _ => parallel_expression config other e)
  have criterion (item : SortItem) :
      Parallel config other (sortItem config item) (sortItem other item) item.preorder := by
    have direction : ∀ part ∈ optional (fun direction : SortDirection =>
        space :: phrase [direction.word]) item.direction, part.parameter? = none := by
      cases item.direction with
      | none => exact List.forall_mem_nil _
      | some direction => cases direction <;> decide
    exact .listed rfl
      ((parallel_expression config other item.expression).beforeUnlisted (.ofFixed direction))
  have criteria : Parallel config other (optional (order config) clause.order)
      (optional (order other) clause.order)
      ((clause.order.getD []).flatMap SortItem.preorder) := by
    cases clause.order with
    | none => exact .nil
    | some items =>
        exact .behindFixed (by decide) (.separated comma fun item _ => criterion item)
  have counted (kind : CountClause) (e : Expression) :
      Parallel config other (count config kind e) (count other kind e) e.preorder :=
    .behindFixed (by cases kind <;> decide) (parallel_expression config other e)
  refine .listed rfl (.behindFixed (by decide) (items.append (criteria.append ?_)))
  exact (Parallel.optional (counted .skip) clause.skip).append
    (.optional (counted .limit) clause.limit)

/-- The pieces of a statement run in parallel with its `preorder`. -/
theorem parallel_statement (s : Statement) :
    Parallel config other (statement config s) (statement other s) s.preorder := by
  refine .separated (.gap .nil) fun clause _ => ?_
  cases clause with
  | reading c => exact parallel_reading config other c
  | returning c => exact parallel_returning config other c

end Trees

/-- The text of a statement that calls functions of the builders, `callsBuilt`, is cut into the
pieces of the statement, `Spelling.statement`. -/
theorem pieces_render {config : RenderConfig} {s : Statement} {text : String}
    (built : ∀ part ∈ s.preorder, part.callsBuilt = true)
    (rendered : Renderer.render ⟨config⟩ s = .ok text) :
    Scan.pieces text.toList = Spelling.statement config s := by
  obtain ⟨chars, printed, rfl⟩ := Renderer.render_eq_ok.mp rendered
  have words : ∀ part ∈ s.preorder, part.HasWordFunction := fun part member =>
    Part.hasWordFunction_of_callsBuilt (built part member)
  rw [String.toList_ofList]
  exact (spells_statement config s words chars printed).splits.pieces_eq trivial

end CypherQuery
