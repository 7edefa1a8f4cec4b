import CypherQuery.Build.Stages
import CypherQuery.Example.Error
import CypherQuery.Example.Predicate
import CypherQuery.Example.Schema

/-! # Order and pages

The order of the rows that an example finds, `SortOrders`, and the window of rows that make one
page, `PageRequest`. What a page adds to a statement, `Projecting.addPaging`, is counted in steps
that may fail; `Projecting.addPaging_eq` says the same with one test on exact numbers. -/

namespace CypherQuery

/-- The product `x * y`, if 64 bits can hold it. -/
def checkedMul? (x y : UInt64) : Option UInt64 :=
  if x.toNat * y.toNat < UInt64.size then some (x * y) else none

/-- The greatest number of rows that a clause can count: `Int64.maxValue`. -/
def greatestCount : Nat :=
  Int64.maxValue.toNatClampNeg

/-- A number of rows as clauses count them, an `Int64`, if it is at most `greatestCount`. -/
def rowCount? (n : UInt64) : Option Int64 :=
  if n.toNat ≤ greatestCount then some (Int64.ofNat n.toNat) else none

/-- A criterion of an order, by the name of a field. -/
structure SortOrder where
  /-- The name of the field. -/
  property : String
  /-- Which end comes first. -/
  direction : SortDirection
  /-- Whether letter case does not matter. -/
  ignoreCase : Bool
  deriving DecidableEq, Repr

/-- An order: criteria of which each decides where the earlier ones do not. -/
abbrev SortOrders :=
  List SortOrder

/-- Which rows are asked for. -/
inductive RowWindow where
  /-- All rows. -/
  | unpaged
  /-- The page of a number, counted from zero, with so many rows on each page. -/
  | page (number size : UInt64)
  deriving DecidableEq, Repr

/-- The rows asked for, in an order. -/
structure PageRequest where
  /-- Which rows. -/
  window : RowWindow
  /-- In which order. -/
  sort : SortOrders
  deriving DecidableEq, Repr

namespace PageRequest

/-- A page in no particular order; every page has at least one row, whatever `size` is. -/
def of (number size : UInt64) : PageRequest :=
  ⟨.page number (if size = 0 then 1 else size), []⟩

/-- All rows in no particular order. -/
def unpaged : PageRequest :=
  ⟨.unpaged, []⟩

/-- The same rows in another order. -/
def withSort (request : PageRequest) (sort : SortOrders) : PageRequest :=
  { request with sort }

/-- Whether a page is asked for. -/
def isPaged (request : PageRequest) : Bool :=
  match request.window with
  | .unpaged => false
  | .page _ _ => true

/-- The number of the page; zero if all rows are asked for. -/
def number (request : PageRequest) : UInt64 :=
  match request.window with
  | .unpaged => 0
  | .page number _ => number

/-- The number of rows of a page; zero if all rows are asked for. -/
def size (request : PageRequest) : UInt64 :=
  match request.window with
  | .unpaged => 0
  | .page _ size => size

/-- The number of rows before the page, exactly: the product of `number` and `size`. -/
def rowsBefore (request : PageRequest) : Nat :=
  request.number.toNat * request.size.toNat

/-- The number of rows before the page, `rowsBefore`, if 64 bits can hold it. -/
def offset? (request : PageRequest) : Option UInt64 :=
  checkedMul? request.number request.size

end PageRequest

/-- A criterion of an order as an expression, the `subject` of its property; associations are not
sorted by. -/
def SortOrder.toSortItem (description : NodeDescription) (order : SortOrder) :
    Except ExampleError SortItem :=
  match (description.property? order.property).filter fun property => !property.isAssociation with
  | none => .error (.unknownSortProperty description.typeName order.property)
  | some property =>
      let subject := description.subject property
      .ok ⟨if order.ignoreCase then subject.toLower else subject, some order.direction⟩

/-- The criteria of an order, each by `SortOrder.toSortItem`; the first one without a property is an
error. -/
def SortOrders.toSortItems (description : NodeDescription) (sort : SortOrders) :
    Except ExampleError (List SortItem) :=
  sort.mapM (SortOrder.toSortItem description)

/-- A statement with the order and the window of a request. The number of rows before the page must
not overflow, `offset?`, and both this number and the size of the page must fit into 64 bits with a
sign, `rowCount?`. -/
def Projecting.addPaging (stage : Projecting) (description : NodeDescription)
    (request : PageRequest) : Except ExampleError Projecting := do
  let items ← request.sort.toSortItems description
  let sorted := stage.orderBy items
  match request.window with
  | .unpaged => return sorted
  | .page number size =>
      let some skipped := request.offset?.bind rowCount? | .error (.pageOutOfRange number size)
      let some limited := rowCount? size | .error (.pageOutOfRange number size)
      return (sorted.skip skipped).limit limited

/-! ## Pages without overflow -/

/-- The rows before a page can be counted exactly if `rowsBefore`, the product without overflow, is
at most `greatestCount`: an overflow of `offset?` is no smaller. -/
theorem PageRequest.offset?_bind_rowCount? (request : PageRequest) :
    request.offset?.bind rowCount? =
      if request.rowsBefore ≤ greatestCount then some (Int64.ofNat request.rowsBefore)
      else none := by
  have limit : greatestCount < UInt64.size := by decide
  rw [offset?, checkedMul?, ← rowsBefore]
  by_cases fits : request.rowsBefore < UInt64.size
  · have exact : (request.number * request.size).toNat = request.rowsBefore := by
      rw [UInt64.toNat_mul]
      exact Nat.mod_eq_of_lt fits
    rw [if_pos fits, Option.bind_some, rowCount?, exact]
  · rw [if_neg fits, if_neg (by omega), Option.bind_none]

/-- What `addPaging` adds, with one test on exact numbers in place of the steps that may fail. -/
theorem Projecting.addPaging_eq (stage : Projecting) (description : NodeDescription)
    (request : PageRequest) :
    stage.addPaging description request = (do
      let items ← request.sort.toSortItems description
      match request.window with
      | .unpaged => return stage.orderBy items
      | .page number size =>
          if request.rowsBefore ≤ greatestCount ∧ size.toNat ≤ greatestCount then
            return ((stage.orderBy items).skip (Int64.ofNat request.rowsBefore)).limit
              (Int64.ofNat size.toNat)
          else .error (.pageOutOfRange number size)) := by
  rw [addPaging]
  refine bind_congr fun items => ?_
  cases request.window with
  | unpaged => rfl
  | page number size =>
      simp only [PageRequest.offset?_bind_rowCount?, rowCount?]
      by_cases before : request.rowsBefore ≤ greatestCount
      · by_cases sized : size.toNat ≤ greatestCount
        · simp only [before, sized, and_self, if_true]
        · simp only [before, sized, and_false, if_true, if_false]
      · simp only [before, false_and, if_false]

end CypherQuery
