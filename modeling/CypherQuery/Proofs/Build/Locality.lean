import CypherQuery.Build.Call
import CypherQuery.Build.Path
import Mathlib.Data.List.Basic

/-! # Statements clause by clause

Each clause of a statement is made by the calls about it: a reading clause by the call that opens it
and by those for its conditions up to the next one (`ReadingCalls`), and the projecting clause by
the call for the items of the answer and by those behind it (`StatementCalls`). The main statement,
`building_clause_by_clause`, is that the staged builder builds exactly the statements that are put
together in this way, and that the calls for the order and for the two numbers of rows may change
places with each other. -/

namespace CypherQuery

/-! ## What a call is for -/

/-- What a call behind the items of the answer is for: each kind of call changes a part of its
own. -/
inductive PagingKind where
  /-- Criteria of the order. -/
  | order
  /-- A number of rows left out. -/
  | skip
  /-- A greatest number of rows. -/
  | limit
  deriving DecidableEq, Repr

namespace StagedCall

/-- The condition that a call supplies, with the connective that joins it to those before it; `none`
if there is none. -/
def supplied? : StagedCall → Option (Connective × Expression)
  | .common (.filter condition) | .common (.filterIfPresent (some condition)) | .and condition =>
      some (.and, condition)
  | .or condition => some (.or, condition)
  | _ => none

/-- The call may come first among those for the conditions of a reading clause: a `filter`, with or
without a condition. -/
def Filters : StagedCall → Prop
  | .common (.filter _) | .common (.filterIfPresent _) => True
  | _ => False

/-- The call may come later among those for the conditions of a reading clause: a condition by `and`
or by `or`. -/
def Extends : StagedCall → Prop
  | .and _ | .or _ => True
  | _ => False

/-- What a call is for, as a `PagingKind`, if it may come behind the items of the answer. -/
def pagingKind? : StagedCall → Option PagingKind
  | .common (.orderBy _) => some .order
  | .common (.skip _) => some .skip
  | .common (.limit _) => some .limit
  | _ => none

/-- The criteria that a call adds to the order. -/
def criteria : StagedCall → List SortItem
  | .common (.orderBy items) => items
  | _ => []

/-- The number of rows that a call leaves out. -/
def skipped? : StagedCall → Option Int64
  | .common (.skip count) => some count
  | _ => none

/-- The greatest number of rows that a call asks for. -/
def limited? : StagedCall → Option Int64
  | .common (.limit count) => some count
  | _ => none

/-- Calls for the conditions of one reading clause: one that `Filters`, and others that
`Extends`. -/
inductive Conditions : List StagedCall → Prop where
  /-- There are none. -/
  | none : Conditions []
  /-- There is a first one, and others behind it. -/
  | some {first : StagedCall} {rest : List StagedCall} (filters : first.Filters)
      (extending : ∀ call ∈ rest, call.Extends) : Conditions (first :: rest)

/-- Calls that come behind the items of the answer: each has a `pagingKind?`. -/
def Paging (calls : List StagedCall) : Prop :=
  ∀ call ∈ calls, call.pagingKind? ≠ none

instance (calls : List StagedCall) : Decidable (Paging calls) :=
  inferInstanceAs (Decidable (∀ call ∈ calls, call.pagingKind? ≠ none))

/-- Calls of one kind, by `pagingKind?`, stand in the same order in two sequences, whatever stands
between them. -/
def SameByKind (calls others : List StagedCall) : Prop :=
  ∀ kind, calls.filter (·.pagingKind? = some kind) = others.filter (·.pagingKind? = some kind)

end StagedCall

/-! ## Clauses of calls -/

/-- The connective of a condition that is combined of others. -/
def Expression.connective? : Expression → Option Connective
  | .logical op _ _ => some op
  | _ => none

/-- An expression as an operand of a connective: a condition of another one is parenthesized by
`nested`. -/
def Expression.operandOf (op : Connective) (e : Expression) : Expression :=
  if ∃ own ∈ e.connective?, own ≠ op then .nested e else e

/-- An expression with a further condition, joined to it by a connective; both are taken by
`operandOf`. -/
def Expression.withFurther (e : Expression) (further : Connective × Expression) : Expression :=
  .logical further.1 (e.operandOf further.1) (further.2.operandOf further.1)

/-- The calls about one reading clause, of which those for its conditions are legal. -/
structure ReadingCalls where
  /-- Whether the query goes on when nothing is found. -/
  optional : Bool
  /-- What is looked for. -/
  pattern : Pattern
  /-- The calls for the conditions. -/
  conditions : List StagedCall
  /-- These calls follow each other. -/
  legal : StagedCall.Conditions conditions

namespace ReadingCalls

/-- The calls in order: `matching`, and then those for the conditions. -/
def calls (reading : ReadingCalls) : List StagedCall :=
  .common (.matching reading.optional reading.pattern) :: reading.conditions

/-- The condition of the clause: the first one that is supplied, `supplied?`, and each further one
joined by its own connective to all those before it, `Expression.withFurther`. -/
def condition (reading : ReadingCalls) : Option Expression :=
  match reading.conditions.filterMap StagedCall.supplied? with
  | [] => none
  | (_, first) :: further => some (further.foldl Expression.withFurther first)

/-- The clause that the calls make, with their `condition`. -/
def clause (reading : ReadingCalls) : Match :=
  ⟨reading.optional, reading.pattern, reading.condition⟩

end ReadingCalls

/-- The calls about all clauses of a statement, of which those behind the items are legal. -/
structure StatementCalls where
  /-- The calls about each reading clause. -/
  readings : List ReadingCalls
  /-- Whether equal rows are answered once. -/
  distinct : Bool
  /-- The items of the answer. -/
  items : List Expression
  /-- The calls behind that for the items. -/
  trailing : List StagedCall
  /-- These calls come behind the items. -/
  legal : StagedCall.Paging trailing

namespace StatementCalls

/-- The calls in order: those about each reading clause, the one for the items, and those that are
`trailing`. -/
def calls (parts : StatementCalls) : List StagedCall :=
  parts.readings.flatMap ReadingCalls.calls ++
    .common (.returning parts.distinct parts.items) :: parts.trailing

/-- The projecting clause. All criteria make the order, and the last number of each kind counts:
`getLast?` of those that are `skipped?` and `limited?`. -/
def returning (parts : StatementCalls) : Return where
  projection := ⟨parts.distinct, parts.items⟩
  order :=
    match parts.trailing.flatMap StagedCall.criteria with
    | [] => none
    | criteria => some criteria
  skip := (parts.trailing.filterMap StagedCall.skipped?).getLast?.map fun count =>
    .literal (.integer count)
  limit := (parts.trailing.filterMap StagedCall.limited?).getLast?.map fun count =>
    .literal (.integer count)

/-- The statement: the `clause` of each reading, and `returning`. -/
def statement (parts : StatementCalls) : Statement :=
  .ofClauses (parts.readings.map ReadingCalls.clause) parts.returning

end StatementCalls

/-! ## The condition of a reading clause -/

/-- A condition is joined to those before it with parentheses around what is of another connective:
`combine` is `withFurther`. -/
theorem Expression.combine_eq_withFurther (e condition : Expression) (op : Connective) :
    e.combine op condition = e.withFurther (op, condition) := by
  have grouped : ∀ operand : Expression, operand.groupedIn op = operand.operandOf op := by
    intro operand
    cases operand
    case logical own left right =>
      by_cases same : own = op
      · simp [groupedIn, operandOf, connective?, same]
      · simp [groupedIn, operandOf, connective?, same]
    all_goals rfl
  rw [combine, withFurther, grouped, grouped]

namespace OpenMatch

/-- The clause behind a call for its conditions, joined by `OpenMatch.join` if the call supplies
one. -/
def supply (clause : OpenMatch) (call : StagedCall) : OpenMatch :=
  match call.supplied? with
  | some (op, condition) => clause.join op condition
  | none => clause

/-- Conditions behind the first one are joined to it one by one: `OpenMatch.join` folds to
`Expression.withFurther`. -/
theorem foldl_join (optional : Bool) (pattern : Pattern) (first : Expression)
    (further : List (Connective × Expression)) :
    further.foldl (fun clause supply => join supply.1 clause supply.2)
        ⟨optional, pattern, some first⟩ =
      ⟨optional, pattern, some (further.foldl Expression.withFurther first)⟩ := by
  induction further generalizing first with
  | nil => rfl
  | cons next rest ih =>
      have step : join next.1 ⟨optional, pattern, some first⟩ next.2 =
          ⟨optional, pattern, some (first.withFurther next)⟩ :=
        congrArg (fun whole => OpenMatch.mk optional pattern (some whole))
          (first.combine_eq_withFurther next.2 next.1)
      rw [List.foldl_cons, step, ih, List.foldl_cons]

/-- A clause behind all calls for its conditions, folded by `supply`, is the `clause` of these
calls. -/
theorem close_foldl_supply (reading : ReadingCalls) :
    (reading.conditions.foldl supply (.start reading.optional reading.pattern)).close =
      reading.clause := by
  have supplies : reading.conditions.foldl supply (.start reading.optional reading.pattern) =
      (reading.conditions.filterMap StagedCall.supplied?).foldl
        (fun clause supply => join supply.1 clause supply.2)
        (.start reading.optional reading.pattern) := by
    rw [List.foldl_filterMap]
    congr 1
    funext clause call
    rw [supply]
    rcases call.supplied? with _ | ⟨op, condition⟩
    · rfl
    · rfl
  rw [supplies, ReadingCalls.clause, ReadingCalls.condition]
  rcases reading.conditions.filterMap StagedCall.supplied? with _ | ⟨⟨op, first⟩, further⟩
  · rfl
  · exact congrArg close (foldl_join reading.optional reading.pattern first further)

end OpenMatch

/-! ## The projecting clause -/

namespace OpenReturn

/-- The clause behind a call that follows the items of the answer: `orderBy`, `skipping` or
`limitedTo`. -/
def page (clause : OpenReturn) : StagedCall → OpenReturn
  | .common (.orderBy items) => clause.orderBy items
  | .common (.skip count) => clause.skipping count
  | .common (.limit count) => clause.limitedTo count
  | _ => clause

/-- A call changes what it is for, and nothing else: `page` field by field. -/
theorem page_eq (clause : OpenReturn) (call : StagedCall) :
    clause.page call =
      { clause with
        order := clause.order ++ call.criteria
        skip := call.skipped?.or clause.skip
        limit := call.limited?.or clause.limit } := by
  rcases call with (_ | _ | _ | _ | items | count | count) | _ | _
  case common.orderBy => rfl
  all_goals
    rw [StagedCall.criteria, List.append_nil]
    · rfl
    · nofun

/-- Behind all calls, folded by `page`, all criteria make the order, and the last number of each
kind counts. -/
theorem foldl_page (clause : OpenReturn) (trailing : List StagedCall) :
    trailing.foldl page clause =
      { distinct := clause.distinct
        items := clause.items
        order := clause.order ++ trailing.flatMap StagedCall.criteria
        skip := (trailing.filterMap StagedCall.skipped?).getLast?.or clause.skip
        limit := (trailing.filterMap StagedCall.limited?).getLast?.or clause.limit } := by
  have last : ∀ (number : StagedCall → Option Int64) (call : StagedCall) (rest : List StagedCall)
      (earlier : Option Int64),
      ((call :: rest).filterMap number).getLast?.or earlier =
        (rest.filterMap number).getLast?.or ((number call).or earlier) := by
    intro number call rest earlier
    rcases counted : number call with _ | count
    · rw [List.filterMap_cons_none counted]
      rfl
    · rw [List.filterMap_cons_some counted, List.getLast?_cons]
      rcases (rest.filterMap number).getLast? with _ | other
      · rfl
      · rfl
  induction trailing generalizing clause with
  | nil => simp
  | cons call rest ih =>
      rw [List.foldl_cons, ih, List.flatMap_cons, last, last, ← List.append_assoc, page_eq]

/-- The projecting clause behind all calls that follow the items, folded by `page`, is the
`returning` of these calls. -/
theorem close_foldl_page (parts : StatementCalls) :
    (parts.trailing.foldl page (.start parts.distinct parts.items)).close = parts.returning := by
  rw [foldl_page, close, StatementCalls.returning]
  simp only [start, List.nil_append, Option.or_none]
  rcases parts.trailing.flatMap StagedCall.criteria with _ | ⟨item, items⟩
  · rfl
  · rfl

end OpenReturn

/-! ## Drafts behind the calls about a clause -/

namespace Draft

/-- The draft behind calls is the one behind the later ones, behind the earlier ones: `Draft.calls?`
on an append. -/
theorem calls?_append (draft : Draft) (earlier later : List StagedCall) :
    draft.calls? (earlier ++ later) = (draft.calls? earlier).bind (·.calls? later) :=
  List.foldlM_append

/-- The reading clauses of a draft that awaits another one or the items of the answer; `none` once
it is `projecting`. -/
def reading? : Draft → Option (List Match)
  | .start => some []
  | .unfiltered stage => some stage.reading.close
  | .filtered stage => some stage.reading.close
  | .projecting _ => none

/-- A draft that awaits a reading clause takes the call `matching` that opens it. -/
theorem call?_matching {draft : Draft} {clauses : List Match}
    (reads : draft.reading? = some clauses) (optional : Bool) (pattern : Pattern) :
    draft.call? (.common (.matching optional pattern)) =
      some (.unfiltered ⟨⟨clauses, .start optional pattern⟩⟩) := by
  rcases draft with _ | stage | stage | stage <;> cases reads <;> rfl

/-- A draft with reading clauses takes the call `returning` for the items of the answer. -/
theorem call?_returning {draft : Draft} {clauses : List Match}
    (reads : draft.reading? = some clauses) (present : clauses ≠ []) (distinct : Bool)
    (items : List Expression) :
    draft.call? (.common (.returning distinct items)) =
      some (.projecting ⟨clauses, .start distinct items⟩) := by
  rcases draft with _ | stage | stage | stage <;> cases reads
  · exact absurd rfl present
  · rfl
  · rfl

/-- A reading clause with a condition takes calls for further ones, those that `Extends`. -/
theorem calls?_extending {calls : List StagedCall} (extending : ∀ call ∈ calls, call.Extends)
    (closed : List Match) (clause : OpenMatch) :
    (filtered ⟨⟨closed, clause⟩⟩).calls? calls =
      some (.filtered ⟨⟨closed, calls.foldl OpenMatch.supply clause⟩⟩) := by
  induction calls generalizing clause with
  | nil => rfl
  | cons call rest ih =>
      obtain ⟨further, others⟩ := List.forall_mem_cons.mp extending
      have step : (filtered ⟨⟨closed, clause⟩⟩).call? call =
          some (.filtered ⟨⟨closed, clause.supply call⟩⟩) := by
        rcases call with _ | condition | condition
        · cases further
        · rfl
        · rfl
      exact (congrArg (·.bind (·.calls? rest)) step).trans (ih others (clause.supply call))

/-- An open reading clause takes calls for its conditions, `StagedCall.Conditions`. -/
theorem calls?_conditions {calls : List StagedCall} (legal : StagedCall.Conditions calls)
    (closed : List Match) (clause : OpenMatch) :
    ∃ next, (unfiltered ⟨⟨closed, clause⟩⟩).calls? calls = some next ∧
      next.reading? = some (closed ++ [(calls.foldl OpenMatch.supply clause).close]) := by
  rcases legal with _ | @⟨first, rest, filters, extending⟩
  · exact ⟨_, rfl, rfl⟩
  · have step : (unfiltered ⟨⟨closed, clause⟩⟩).call? first =
        some (.filtered ⟨⟨closed, clause.supply first⟩⟩) := by
      rcases first with (_ | _ | (_ | condition) | _ | _ | _ | _) | _ | _ <;> cases filters <;> rfl
    have later := calls?_extending extending closed (clause.supply first)
    exact ⟨_, (congrArg (·.bind (·.calls? rest)) step).trans later, rfl⟩

/-- The calls about a reading clause add its `clause` to those of the draft. -/
theorem calls?_reading {draft : Draft} {clauses : List Match}
    (reads : draft.reading? = some clauses) (reading : ReadingCalls) :
    ∃ next, draft.calls? reading.calls = some next ∧
      next.reading? = some (clauses ++ [reading.clause]) := by
  have opened := call?_matching reads reading.optional reading.pattern
  obtain ⟨next, offered, more⟩ := calls?_conditions reading.legal clauses
    (.start reading.optional reading.pattern)
  rw [OpenMatch.close_foldl_supply] at more
  exact ⟨next, (congrArg (·.bind (·.calls? reading.conditions)) opened).trans offered, more⟩

/-- The calls about reading clauses add them to those of the draft, each by `ReadingCalls.clause`.
This is by induction on the readings. -/
theorem calls?_readings {draft : Draft} {clauses : List Match}
    (reads : draft.reading? = some clauses) (readings : List ReadingCalls) :
    ∃ next, draft.calls? (readings.flatMap ReadingCalls.calls) = some next ∧
      next.reading? = some (clauses ++ readings.map ReadingCalls.clause) := by
  induction readings generalizing draft clauses with
  | nil => exact ⟨draft, rfl, by rw [reads, List.map_nil, List.append_nil]⟩
  | cons reading rest ih =>
      obtain ⟨middle, first, between⟩ := calls?_reading reads reading
      obtain ⟨next, later, more⟩ := ih between
      refine ⟨next, ?_, ?_⟩
      · rw [List.flatMap_cons, calls?_append, first]
        exact later
      · rw [more, List.map_cons, List.append_assoc, List.singleton_append]

/-- A projecting clause takes the calls that come behind the items of the answer,
`StagedCall.Paging`. -/
theorem calls?_paging {calls : List StagedCall} (paging : StagedCall.Paging calls)
    (reading : List Match) (clause : OpenReturn) :
    (projecting ⟨reading, clause⟩).calls? calls =
      some (.projecting ⟨reading, calls.foldl OpenReturn.page clause⟩) := by
  induction calls generalizing clause with
  | nil => rfl
  | cons call rest ih =>
      obtain ⟨pages, others⟩ := List.forall_mem_cons.mp paging
      have step : (projecting ⟨reading, clause⟩).call? call =
          some (.projecting ⟨reading, clause.page call⟩) := by
        rcases call with (_ | _ | _ | _ | items | count | count) | _ | _
        case common.orderBy => rfl
        case common.skip => rfl
        case common.limit => rfl
        all_goals exact absurd rfl pages
      exact (congrArg (·.bind (·.calls? rest)) step).trans (ih others (clause.page call))

end Draft

/-- The staged builder builds every statement that is put together by the calls about its clauses:
`Statement.ofCalls?` of the `calls` is the `statement`. -/
theorem StatementCalls.ofCalls?_calls (parts : StatementCalls) (reads : parts.readings ≠ []) :
    Statement.ofCalls? parts.calls = some parts.statement := by
  have start : Draft.start.reading? = some [] := rfl
  obtain ⟨draft, offered, read⟩ := Draft.calls?_readings start parts.readings
  have present : [] ++ parts.readings.map ReadingCalls.clause ≠ [] :=
    fun none => reads (List.map_eq_nil_iff.mp none)
  have asked := Draft.call?_returning read present parts.distinct parts.items
  have paged := Draft.calls?_paging parts.legal ([] ++ parts.readings.map ReadingCalls.clause)
    (.start parts.distinct parts.items)
  have whole : Draft.start.calls? parts.calls = some (.projecting
      ⟨parts.readings.map ReadingCalls.clause,
        parts.trailing.foldl OpenReturn.page (.start parts.distinct parts.items)⟩) := by
    rw [calls, Draft.calls?_append, offered]
    exact (congrArg (·.bind (·.calls? parts.trailing)) asked).trans paged
  rw [Statement.ofCalls?, whole]
  refine congrArg some ?_
  rw [statement, ← OpenReturn.close_foldl_page]
  rfl

/-! ## Every statement that is built is put together -/

namespace StatementCalls

/-- A call that opens a reading clause comes before calls for its conditions and calls about other
clauses: together they are the calls of some `StatementCalls`. -/
theorem exists_matching {conditions : List StagedCall} (legal : StagedCall.Conditions conditions)
    (parts : StatementCalls) (optional : Bool) (pattern : Pattern) :
    ∃ whole : StatementCalls, whole.readings ≠ [] ∧ whole.calls =
      .common (.matching optional pattern) :: (conditions ++ parts.calls) := by
  refine ⟨{ parts with readings := ⟨optional, pattern, conditions, legal⟩ :: parts.readings },
    List.cons_ne_nil _ _, ?_⟩
  rw [calls, List.flatMap_cons, List.append_assoc]
  rfl

/-- The call for the items of the answer comes before those that follow it: together they are the
calls of some `StatementCalls`. -/
theorem exists_returning {trailing : List StagedCall} (legal : StagedCall.Paging trailing)
    (distinct : Bool) (items : List Expression) :
    ∃ whole : StatementCalls, whole.calls = .common (.returning distinct items) :: trailing :=
  ⟨⟨[], distinct, items, trailing, legal⟩, rfl⟩

end StatementCalls

namespace Draft

/-- The calls that complete a draft are in order for its stage: calls for the conditions of a clause
that is open, and then the `calls` of some `StatementCalls`. -/
def Completes : Draft → List StagedCall → Prop
  | .start, calls => ∃ parts : StatementCalls, parts.readings ≠ [] ∧ parts.calls = calls
  | .unfiltered _, calls => ∃ (conditions : List StagedCall) (parts : StatementCalls),
      StagedCall.Conditions conditions ∧ conditions ++ parts.calls = calls
  | .filtered _, calls => ∃ (conditions : List StagedCall) (parts : StatementCalls),
      (∀ call ∈ conditions, call.Extends) ∧ conditions ++ parts.calls = calls
  | .projecting _, calls => StagedCall.Paging calls

/-- Only calls that are in order for the stage of a draft complete it: if `Draft.calls?` leads to a
statement, then `Completes` holds. -/
theorem completes_of_calls? {draft last : Draft} {calls : List StagedCall}
    (offered : draft.calls? calls = some last) {s : Statement} (built : last.build? = some s) :
    draft.Completes calls := by
  induction calls generalizing draft with
  | nil =>
      cases offered
      rcases last with _ | stage | stage | stage <;> cases built
      exact List.forall_mem_nil _
  | cons call rest ih =>
      obtain ⟨next, first, later⟩ := Option.bind_eq_some_iff.mp offered
      have completes := ih later
      clear ih later offered
      rcases draft with _ | stage | stage | stage
      case start =>
        rcases call with (⟨optional, pattern⟩ | _ | _ | _ | _ | _ | _) | _ | _ <;> cases first
        obtain ⟨conditions, parts, legal, rfl⟩ := completes
        exact StatementCalls.exists_matching legal parts optional pattern
      case unfiltered =>
        rcases call with (⟨optional, pattern⟩ | condition | condition | ⟨distinct, items⟩ | _ | _ |
          _) | _ | _ <;> cases first
        case common.matching =>
          obtain ⟨conditions, parts, legal, rfl⟩ := completes
          obtain ⟨whole, -, same⟩ := StatementCalls.exists_matching legal parts optional pattern
          exact ⟨[], whole, .none, same⟩
        case common.filter | common.filterIfPresent =>
          obtain ⟨conditions, parts, extending, rfl⟩ := completes
          refine ⟨_ :: conditions, parts, .some ?_ extending, rfl⟩
          exact trivial
        case common.returning =>
          obtain ⟨whole, same⟩ := StatementCalls.exists_returning completes distinct items
          exact ⟨[], whole, .none, same⟩
      case filtered =>
        rcases call with (⟨optional, pattern⟩ | _ | _ | ⟨distinct, items⟩ | _ | _ | _) | condition |
          condition <;> cases first
        case common.matching =>
          obtain ⟨conditions, parts, legal, rfl⟩ := completes
          obtain ⟨whole, -, same⟩ := StatementCalls.exists_matching legal parts optional pattern
          exact ⟨[], whole, List.forall_mem_nil _, same⟩
        case and | or =>
          obtain ⟨conditions, parts, extending, rfl⟩ := completes
          refine ⟨_ :: conditions, parts, List.forall_mem_cons.mpr ⟨?_, extending⟩, rfl⟩
          exact trivial
        case common.returning =>
          obtain ⟨whole, same⟩ := StatementCalls.exists_returning completes distinct items
          exact ⟨[], whole, List.forall_mem_nil _, same⟩
      case projecting =>
        rcases call with (_ | _ | _ | _ | items | count | count) | _ | _ <;> cases first
        all_goals exact List.forall_mem_cons.mpr ⟨nofun, completes⟩

end Draft

/-! ## Calls that change places -/

namespace StagedCall

/-- What only calls of one kind add, read by `flatMap`, can be read off these calls alone. -/
theorem flatMap_filter {read : StagedCall → List α} {kind : PagingKind}
    (only : ∀ call, call.pagingKind? ≠ some kind → read call = []) (calls : List StagedCall) :
    (calls.filter (·.pagingKind? = some kind)).flatMap read = calls.flatMap read := by
  induction calls with
  | nil => rfl
  | cons call rest ih =>
      by_cases own : call.pagingKind? = some kind
      · rw [List.filter_cons_of_pos (by simp [own]), List.flatMap_cons, List.flatMap_cons, ih]
      · rw [List.filter_cons_of_neg (by simp [own]), List.flatMap_cons, only call own, ih,
          List.nil_append]

/-- What only calls of one kind add is the same for calls that are `SameByKind`. -/
theorem SameByKind.flatMap_eq {calls others : List StagedCall} (same : SameByKind calls others)
    (read : StagedCall → List α) (kind : PagingKind)
    (only : ∀ call, call.pagingKind? ≠ some kind → read call = []) :
    calls.flatMap read = others.flatMap read := by
  rw [← flatMap_filter only calls, same kind, flatMap_filter only others]

/-- The numbers that only calls of one kind have are the same for calls that are `SameByKind`. -/
theorem SameByKind.filterMap_eq {calls others : List StagedCall} (same : SameByKind calls others)
    (number : StagedCall → Option α) (kind : PagingKind)
    (only : ∀ call, call.pagingKind? ≠ some kind → number call = none) :
    calls.filterMap number = others.filterMap number := by
  rw [List.filterMap_eq_flatMap_toList, List.filterMap_eq_flatMap_toList]
  exact same.flatMap_eq _ kind fun call other => by rw [only call other, Option.toList_none]

/-- Calls that are `SameByKind` with none are none. -/
theorem SameByKind.eq_nil {calls : List StagedCall} (same : SameByKind calls [])
    (paging : Paging calls) : calls = [] := by
  refine List.eq_nil_iff_forall_not_mem.mpr fun call mem => ?_
  obtain ⟨kind, own⟩ := Option.ne_none_iff_exists'.mp (paging call mem)
  have among : call ∈ calls.filter (·.pagingKind? = some kind) :=
    List.mem_filter.mpr ⟨mem, decide_eq_true own⟩
  rw [same kind] at among
  exact List.not_mem_nil among

end StagedCall

/-- A projecting clause, folded by `page`, is the same behind calls that are `SameByKind`. -/
theorem OpenReturn.foldl_page_eq {calls others : List StagedCall}
    (same : StagedCall.SameByKind calls others) (clause : OpenReturn) :
    calls.foldl page clause = others.foldl page clause := by
  have criteria := same.flatMap_eq StagedCall.criteria .order ?_
  have skipped := same.filterMap_eq StagedCall.skipped? .skip ?_
  have limited := same.filterMap_eq StagedCall.limited? .limit ?_
  · rw [foldl_page, foldl_page, criteria, skipped, limited]
  -- A call of another kind adds nothing.
  all_goals
    rintro ((_ | _ | _ | _ | items | count | count) | _ | _) other <;>
      first | rfl | exact absurd rfl other

namespace Draft

/-- A call behind the items of the answer, with a `pagingKind?`, is not offered before them. -/
theorem call?_paging {draft : Draft} {clauses : List Match} (reads : draft.reading? = some clauses)
    {call : StagedCall} (pages : call.pagingKind? ≠ none) : draft.call? call = none := by
  rcases call with (_ | _ | _ | _ | items | count | count) | _ | _
  case common.orderBy | common.skip | common.limit =>
    rcases draft with _ | stage | stage | stage <;> first | rfl | cases reads
  all_goals exact absurd rfl pages

/-- Calls of `Paging` come too early for a draft that still reads: it takes them only if there are
none. -/
theorem calls?_early {draft : Draft} {clauses : List Match} (reads : draft.reading? = some clauses)
    {calls : List StagedCall} (paging : StagedCall.Paging calls) :
    draft.calls? calls = if calls = [] then some draft else none := by
  rcases calls with _ | ⟨call, rest⟩
  · rfl
  · have first := call?_paging reads (paging call List.mem_cons_self)
    exact congrArg (·.bind (·.calls? rest)) first

/-- Calls behind the items of the answer may change places with those of other kinds: `Draft.calls?`
cannot tell sequences that are `SameByKind`. -/
theorem calls?_of_sameByKind {calls others : List StagedCall}
    (paging : StagedCall.Paging calls) (pagingToo : StagedCall.Paging others)
    (same : StagedCall.SameByKind calls others) (draft : Draft) :
    draft.calls? calls = draft.calls? others := by
  rcases reads : draft.reading? with _ | clauses
  · rcases draft with _ | stage | stage | ⟨reading, clause⟩ <;> cases reads
    rw [calls?_paging paging, calls?_paging pagingToo, OpenReturn.foldl_page_eq same]
  · have none_iff : calls = [] ↔ others = [] := by
      constructor
      · rintro rfl
        exact StagedCall.SameByKind.eq_nil (fun kind => (same kind).symm) pagingToo
      · rintro rfl
        exact same.eq_nil paging
    rw [calls?_early reads paging, calls?_early reads pagingToo]
    simp only [none_iff]

end Draft

/-- The staged builder builds exactly the statements that are put together clause by clause. A
sequence of calls makes a statement exactly if it is the `calls` of some `StatementCalls`: those
about each of its reading clauses, of which there is one, then the call for the items of the answer,
and then calls for the order and the numbers of rows. Each clause is made by its own calls. The
calls behind the items may change places as long as those of each kind stay in order,
`StagedCall.SameByKind`. -/
theorem building_clause_by_clause :
    (∀ (sequence : List StagedCall) (s : Statement), Statement.ofCalls? sequence = some s ↔
      ∃ parts : StatementCalls, parts.readings ≠ [] ∧ parts.calls = sequence ∧
        parts.statement = s) ∧
    ∀ before trailing others : List StagedCall, StagedCall.Paging trailing →
      StagedCall.Paging others → StagedCall.SameByKind trailing others →
        Statement.ofCalls? (before ++ trailing) = Statement.ofCalls? (before ++ others) := by
  constructor
  · intro sequence s
    constructor
    · intro made
      obtain ⟨last, offered, built⟩ := Option.bind_eq_some_iff.mp made
      obtain ⟨parts, reads, rfl⟩ := Draft.completes_of_calls? offered built
      rw [parts.ofCalls?_calls reads] at made
      exact ⟨parts, reads, rfl, Option.some.inj made⟩
    · rintro ⟨parts, reads, rfl, rfl⟩
      exact parts.ofCalls?_calls reads
  · intro before trailing others paging pagingToo same
    rw [Statement.ofCalls?, Statement.ofCalls?, Draft.calls?_append, Draft.calls?_append]
    congr 2
    funext draft
    exact draft.calls?_of_sameByKind paging pagingToo same

/-- Calls about two reading clauses, the first one with alternatives, up to the items. -/
def alternativeCalls : List StagedCall :=
  [.common (.matching false (.ofNode .any)), .common (.filterIfPresent none), .or (.variable "a"),
    .and (.variable "b"), .or (.variable "c"), .common (.matching true (.ofNode .any)),
    .common (.returning false [.asterisk])]

/-- Behind the `alternativeCalls`, those for the order and the numbers of rows may change places. -/
theorem building_alternativeCalls :
    ∃ parts : StatementCalls,
      parts.calls = alternativeCalls ++ [.common (.skip 1), .common (.orderBy []),
        .common (.limit 2), .common (.skip 3)] ∧
      Statement.ofCalls? (alternativeCalls ++ [.common (.limit 2), .common (.skip 1),
        .common (.skip 3), .common (.orderBy [])]) = some parts.statement ∧
      parts.statement.clauses =
        [.reading ⟨false, .ofNode .any, some (.logical .or
            (.nested (.logical .and (.variable "a") (.variable "b"))) (.variable "c"))⟩,
          .reading ⟨true, .ofNode .any, none⟩,
          .returning ⟨⟨false, [.asterisk]⟩, none, some (.literal (.integer 3)),
            some (.literal (.integer 2))⟩] := by
  obtain ⟨building, changing⟩ := building_clause_by_clause
  obtain ⟨parts, -, same, made⟩ := (building (alternativeCalls ++ [.common (.skip 1),
    .common (.orderBy []), .common (.limit 2), .common (.skip 3)]) _).mp rfl
  have changed := changing alternativeCalls
    [.common (.skip 1), .common (.orderBy []), .common (.limit 2), .common (.skip 3)]
    [.common (.limit 2), .common (.skip 1), .common (.skip 3), .common (.orderBy [])]
    (by decide) (by decide) (by rintro (_ | _ | _) <;> rfl)
  refine ⟨parts, same, ?_, ?_⟩
  · rw [← changed, made]
    rfl
  · rw [made]
    rfl

end CypherQuery
