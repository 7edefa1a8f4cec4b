import CypherQuery.Build.Open

/-! # Statements in stages

A statement is built in stages, `Unfiltered`, `Filtered` and `Projecting`, and each stage only has
the operations that are legal then, so that what comes out has at least one reading clause and
exactly one projecting clause, at its end. -/

namespace CypherQuery

/-- The reading clauses that are closed, and the one that is open. -/
structure OpenReading where
  /-- The closed clauses in order. -/
  closed : List Match
  /-- The open clause. -/
  current : OpenMatch
  deriving Repr

namespace OpenReading

/-- The open clause is closed, by `OpenMatch.close`, and another one is opened. -/
def next (reading : OpenReading) (optional : Bool) (pattern : Pattern) : OpenReading :=
  ⟨reading.closed ++ [reading.current.close], .start optional pattern⟩

/-- All reading clauses, the open one `current` closed behind the others. -/
def close (reading : OpenReading) : List Match :=
  reading.closed ++ [reading.current.close]

/-- The open clause `current` is changed by `f`. -/
def change (f : OpenMatch → OpenMatch) (reading : OpenReading) : OpenReading :=
  { reading with current := f reading.current }

end OpenReading

/-- The stage behind a reading clause that has no condition yet. -/
structure Unfiltered where
  /-- What is read. -/
  reading : OpenReading
  deriving Repr

/-- The stage behind the condition of a reading clause. -/
structure Filtered where
  /-- What is read. -/
  reading : OpenReading
  deriving Repr

/-- The stage behind the items of the answer. -/
structure Projecting where
  /-- The reading clauses. -/
  reading : List Match
  /-- The projecting clause. -/
  returning : OpenReturn
  deriving Repr

/-- A first reading clause. -/
def matching (optional : Bool) (pattern : Pattern) : Unfiltered :=
  ⟨⟨[], .start optional pattern⟩⟩

namespace OpenReading

/-- The items of the answer to what is read, with all reading clauses closed by `close`. -/
def project (reading : OpenReading) (distinct : Bool) (items : List Expression) : Projecting :=
  ⟨reading.close, .start distinct items⟩

end OpenReading

namespace Unfiltered

/-- A condition, by `OpenMatch.filter`. -/
def filter (stage : Unfiltered) (condition : Expression) : Filtered :=
  ⟨stage.reading.change (·.filter condition)⟩

/-- A condition if there is one, by `OpenMatch.filterIfPresent`. -/
def filterIfPresent (stage : Unfiltered) (condition : Option Expression) : Filtered :=
  ⟨stage.reading.change (·.filterIfPresent condition)⟩

/-- Another reading clause, `next` to the others. -/
def matching (stage : Unfiltered) (optional : Bool) (pattern : Pattern) : Unfiltered :=
  ⟨stage.reading.next optional pattern⟩

/-- The items of the answer. -/
def returning (stage : Unfiltered) (distinct : Bool) (items : List Expression) : Projecting :=
  stage.reading.project distinct items

end Unfiltered

namespace Filtered

/-- A further condition that must hold, by `OpenMatch.filter`. -/
def and (stage : Filtered) (condition : Expression) : Filtered :=
  ⟨stage.reading.change (·.filter condition)⟩

/-- A condition that may hold instead, by `OpenMatch.alternative`. -/
def or (stage : Filtered) (condition : Expression) : Filtered :=
  ⟨stage.reading.change (·.alternative condition)⟩

/-- Another reading clause, `next` to the others. -/
def matching (stage : Filtered) (optional : Bool) (pattern : Pattern) : Unfiltered :=
  ⟨stage.reading.next optional pattern⟩

/-- The items of the answer. -/
def returning (stage : Filtered) (distinct : Bool) (items : List Expression) : Projecting :=
  stage.reading.project distinct items

end Filtered

namespace Projecting

/-- Further criteria of the order, by `OpenReturn.orderBy`. -/
def orderBy (stage : Projecting) (items : List SortItem) : Projecting :=
  { stage with returning := stage.returning.orderBy items }

/-- Another number of rows left out, by `OpenReturn.skipping`. -/
def skip (stage : Projecting) (count : Int64) : Projecting :=
  { stage with returning := stage.returning.skipping count }

/-- Another greatest number of rows, by `OpenReturn.limitedTo`. -/
def limit (stage : Projecting) (count : Int64) : Projecting :=
  { stage with returning := stage.returning.limitedTo count }

/-- The statement, `ofClauses`: the reading clauses and the projecting clause, closed. -/
def build (stage : Projecting) : Statement :=
  .ofClauses stage.reading stage.returning.close

end Projecting

end CypherQuery
