import CypherQuery.Query.Prepared

/-! # Running queries

A `QueryRunner` answers the text of a query with rows, in any monad. What is expected of the number
of rows is checked on its answer, by `atMostOne` and `needed`. -/

namespace CypherQuery

/-- Something that answers queries with rows of type `ρ`, or fails with an `ε`, in the monad `m`. -/
structure QueryRunner (m : Type → Type) (ρ ε : Type) where
  /-- The answer to a text with the values of its parameters. -/
  run : String → Parameters → m (Except ε (List ρ))

/-- Why a query has no usable answer. -/
inductive ExecutionError (ε : Type) where
  /-- The runner failed. -/
  | runner (cause : ε)
  /-- There are more rows than the one that may be there. -/
  | incorrectResultSize (actual : Nat)
  /-- There is no row where one is needed. -/
  | noResult (cypher : String)
  deriving Repr

/-- The words of an `ExecutionError`. -/
def ExecutionError.message {ε : Type} : ExecutionError ε → String
  | .runner _ => "query runner failed"
  | .incorrectResultSize actual =>
      "incorrect result size: expected 1, actual " ++ String.ofList (digits actual)
  | .noResult cypher => "expected 1 result(s) but none were returned for `" ++ cypher ++ "`"

/-- A query with the runner that answers it. -/
structure ExecutableQuery (m : Type → Type) (ρ ε : Type) where
  /-- The runner. -/
  runner : QueryRunner m ρ ε
  /-- The query. -/
  query : PreparedQuery

namespace ExecutableQuery

variable {m : Type → Type} {ρ ε : Type}

/-- The only row of an answer, if there is one; more rows are an `incorrectResultSize`. -/
def atMostOne : List ρ → Except (ExecutionError ε) (Option ρ)
  | [] => .ok none
  | [row] => .ok (some row)
  | rows => .error (.incorrectResultSize rows.length)

/-- The row that must be there; `none` is `noResult`. -/
def needed (cypher : String) : Option ρ → Except (ExecutionError ε) ρ
  | some row => .ok row
  | none => .error (.noResult cypher)

variable [Monad m]

/-- All rows; a failure of the runner is passed on by `ExecutionError.runner`. -/
def results (executable : ExecutableQuery m ρ ε) : m (Except (ExecutionError ε) (List ρ)) := do
  let answer ← executable.runner.run executable.query.cypher executable.query.parameters
  return answer.mapError .runner

/-- At most one row, `atMostOne` of the `results`. -/
def singleResult (executable : ExecutableQuery m ρ ε) :
    m (Except (ExecutionError ε) (Option ρ)) := do
  let answer ← executable.results
  return answer.bind atMostOne

/-- Exactly one row: `needed` of the `singleResult`. -/
def requiredSingleResult (executable : ExecutableQuery m ρ ε) :
    m (Except (ExecutionError ε) ρ) := do
  let answer ← executable.singleResult
  return answer.bind (needed executable.query.cypher)

end ExecutableQuery

end CypherQuery
