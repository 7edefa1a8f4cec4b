import CypherQuery.Proofs.Example.Agreement
import CypherQuery.Proofs.Render.Failure

/-! # Pages of finds

A page is a window of rows: some are left out, and then so many are answered. The numbers of both
are written as integers of 64 bits with a sign, and the arithmetic that makes them stays within its
limits. The main statement, `pages_share_out_rows`, is that a page is refused exactly if it is not
`PageRequest.Countable`, that otherwise the statement ends with exactly this window
(`Return.HasWindow`), and that the pages of a number of finds share out the rows among them
(`PagedQuery.SharesOut`). -/

namespace CypherQuery

/-! ## Orders that a description resolves -/

/-- Each criterion of an order is by a field that a description stores as a property: `property?`
finds it, and it is no association. -/
def SortOrders.Resolves (sort : SortOrders) (description : NodeDescription) : Prop :=
  ∀ order ∈ sort, ∃ property, description.property? order.property = some property ∧
    property.isAssociation = false

/-- An order that `Resolves` has criteria, by `toSortItems`. -/
theorem SortOrders.Resolves.exists_toSortItems {sort : SortOrders} {description : NodeDescription}
    (resolves : sort.Resolves description) : ∃ items, sort.toSortItems description = .ok items := by
  induction sort with
  | nil => exact ⟨[], rfl⟩
  | cons order rest ih =>
      obtain ⟨⟨property, found, stored⟩, others⟩ := List.forall_mem_cons.mp resolves
      obtain ⟨items, made⟩ := ih others
      have own : (description.property? order.property).filter (!·.isAssociation)
          = some property := by
        rw [found, Option.filter_some, stored]
        rfl
      have first : ∃ item, order.toSortItem description = .ok item := by
        rw [SortOrder.toSortItem, own]
        exact ⟨_, rfl⟩
      obtain ⟨item, same⟩ := first
      exact ⟨item :: items, Attempt.mapM_eq_ok.mpr (.cons same (Attempt.mapM_eq_ok.mp made))⟩

/-! ## Windows of rows -/

namespace PageRequest

/-- The number of rows of a page, `max 1 size`: the size that is asked for, but at least one. -/
def rows (size : UInt64) : Nat :=
  Nat.max 1 size.toNat

/-- Clauses can count the rows of a page, `rows size`, and the rows before it, `number * rows size`:
both are at most `greatestCount`. -/
def Countable (number size : UInt64) : Prop :=
  rows size ≤ greatestCount ∧ number.toNat * rows size ≤ greatestCount

instance (number size : UInt64) : Decidable (Countable number size) :=
  inferInstanceAs (Decidable (_ ∧ _))

/-- The page that is made by `of` has `rows size` rows. -/
theorem toNat_size_of (number size : UInt64) : (of number size).size.toNat = rows size := by
  have sized : (of number size).size = if size = 0 then 1 else size := rfl
  rw [sized, rows]
  by_cases none : size = 0
  · rw [if_pos none, none]
    rfl
  · rw [if_neg none]
    have positive : size.toNat ≠ 0 := fun zero => none (UInt64.toNat_inj.mp zero)
    exact (Nat.max_eq_right (Nat.one_le_iff_ne_zero.mpr positive)).symm

end PageRequest

/-- A projecting clause leaves out `skipped` rows and then answers at most `limited` others. -/
structure Return.HasWindow (clause : Return) (skipped limited : Nat) : Prop where
  /-- The number of rows that are left out. -/
  skip : ∃ count : Int64, clause.skip = some (.literal (.integer count)) ∧ count.toInt = skipped
  /-- The greatest number of rows that are answered. -/
  limit : ∃ count : Int64, clause.limit = some (.literal (.integer count)) ∧ count.toInt = limited

/-- A number up to `greatestCount` is kept by `Int64.ofNat`. -/
theorem toInt_ofNat_of_le_greatestCount {n : Nat} (small : n ≤ greatestCount) :
    (Int64.ofNat n).toInt = n :=
  Int64.toInt_ofNat_of_lt (Nat.lt_of_le_of_lt small (by decide))

/-- The literal of a number of rows is a natural count, `IsNaturalCount`. -/
theorem Expression.isNaturalCount_of_toInt {count : Int64} {n : Nat} (same : count.toInt = n) :
    (literal (.integer count)).IsNaturalCount := by
  refine ⟨count, rfl, Int64.le_iff_toInt_le.mpr ?_⟩
  rw [same]
  exact Int.natCast_nonneg n

/-- A statement that ends with a window does not fail by `negativeCount`. -/
theorem Return.HasWindow.render_ne {clause : Return} {skipped limited : Nat}
    (window : clause.HasWindow skipped limited) (criteria : clause.order ≠ some [])
    (config : RenderConfig) (reading : List Match) (c : CountClause) (value : Int64) :
    Renderer.render ⟨config⟩ (.ofClauses reading clause) ≠ .error (.negativeCount c value) := by
  obtain ⟨⟨before, skip, skipSame⟩, ⟨most, limit, limitSame⟩⟩ := window
  refine Renderer.render_ne_negativeCount config criteria ?_ ?_ c value
  · intro e mem
    rw [skip] at mem
    cases mem
    exact Expression.isNaturalCount_of_toInt skipSame
  · intro e mem
    rw [limit] at mem
    cases mem
    exact Expression.isNaturalCount_of_toInt limitSame

/-! ## Asking for a page -/

/-- What `addPaging` makes of a stage for the page `number` of the given `size`. -/
structure Projecting.AddsPage (stage : Projecting) (description : NodeDescription)
    (number size : UInt64) (sort : SortOrders) : Prop where
  /-- The page is refused exactly if clauses cannot count its rows or those before it. -/
  refused : stage.addPaging description ((PageRequest.of number size).withSort sort) =
      .error (.pageOutOfRange number (PageRequest.of number size).size) ↔
    ¬PageRequest.Countable number size
  /-- Otherwise the statement ends with the order and the window of the page, and is not rejected
  for its numbers of rows. -/
  windowed : PageRequest.Countable number size → ∃ items clause,
    sort.toSortItems description = .ok items ∧
    (stage.addPaging description ((PageRequest.of number size).withSort sort)).map build =
      .ok (.ofClauses stage.reading clause) ∧
    clause.projection = ⟨stage.returning.distinct, stage.returning.items⟩ ∧
    clause.order = (stage.returning.orderBy items).close.order ∧
    clause.HasWindow (number.toNat * PageRequest.rows size) (PageRequest.rows size) ∧
    ∀ config c value, Renderer.render ⟨config⟩ (.ofClauses stage.reading clause) ≠
      .error (.negativeCount c value)

/-- A stage with the criteria `items` and a window of `skipped` and `limited` rows. -/
def Projecting.withWindow (stage : Projecting) (items : List SortItem) (skipped limited : Nat) :
    Projecting :=
  ((stage.orderBy items).skip (Int64.ofNat skipped)).limit (Int64.ofNat limited)

/-- The stage `withWindow` ends with this window, if both numbers are at most `greatestCount`. -/
theorem Projecting.hasWindow_withWindow (stage : Projecting) (items : List SortItem)
    {skipped limited : Nat} (skip : skipped ≤ greatestCount) (limit : limited ≤ greatestCount) :
    (stage.withWindow items skipped limited).returning.close.HasWindow skipped limited :=
  ⟨⟨_, rfl, toInt_ofNat_of_le_greatestCount skip⟩, ⟨_, rfl, toInt_ofNat_of_le_greatestCount limit⟩⟩

/-- A page that is not `Countable` is refused, and one that is adds its window: `number * rows size`
rows are left out and `rows size` are answered. -/
theorem Projecting.addPaging_of {description : NodeDescription} {sort : SortOrders}
    {items : List SortItem} (made : sort.toSortItems description = .ok items) (stage : Projecting)
    (number size : UInt64) :
    (¬PageRequest.Countable number size ∧
      stage.addPaging description ((PageRequest.of number size).withSort sort) =
        .error (.pageOutOfRange number (PageRequest.of number size).size)) ∨
    (PageRequest.Countable number size ∧
      stage.addPaging description ((PageRequest.of number size).withSort sort) =
        .ok (stage.withWindow items (number.toNat * PageRequest.rows size)
          (PageRequest.rows size))) := by
  have sized := PageRequest.toNat_size_of number size
  have before : ((PageRequest.of number size).withSort sort).rowsBefore =
      number.toNat * PageRequest.rows size := by
    rw [← sized]
    rfl
  have whole : stage.addPaging description ((PageRequest.of number size).withSort sort) =
      if number.toNat * PageRequest.rows size ≤ greatestCount ∧
          PageRequest.rows size ≤ greatestCount then
        .ok (stage.withWindow items (number.toNat * PageRequest.rows size) (PageRequest.rows size))
      else .error (.pageOutOfRange number (PageRequest.of number size).size) := by
    rw [addPaging_eq, PageRequest.withSort, made, ← before, ← sized]
    rfl
  rw [whole]
  by_cases countable : PageRequest.Countable number size
  · exact .inr ⟨countable, if_pos countable.symm⟩
  · exact .inl ⟨countable, if_neg fun both => countable both.symm⟩

/-- What becomes of a stage when a page in an order that `Resolves` is asked for. -/
theorem Projecting.addsPage (stage : Projecting) {description : NodeDescription}
    {sort : SortOrders} (resolves : sort.Resolves description) (number size : UInt64) :
    stage.AddsPage description number size sort := by
  obtain ⟨items, made⟩ := resolves.exists_toSortItems
  rcases stage.addPaging_of made number size with ⟨large, refused⟩ | ⟨countable, added⟩
  · exact ⟨⟨fun _ => large, fun _ => refused⟩, fun countable => absurd countable large⟩
  · refine ⟨⟨fun refused => ?_, fun large => absurd countable large⟩, fun _ => ?_⟩
    · rw [added] at refused
      cases refused
    · have window := stage.hasWindow_withWindow items countable.2 countable.1
      refine ⟨items, (stage.withWindow items _ _).returning.close, made, ?_, rfl, rfl, window, ?_⟩
      · rw [added]
        rfl
      · exact fun config => window.render_ne (OpenReturn.order_close_ne _) config stage.reading

/-! ## Asking for a page of finds -/

/-- What `findPage` makes of an example with a predicate for the page `number` of the given
`size`. -/
structure ExampleQueries.FindsPage (queries : ExampleQueries) (sample : Example)
    (predicate : Predicate) (number size : UInt64) (sort : SortOrders) : Prop where
  /-- The page is refused exactly if clauses cannot count its rows or those before it. -/
  refused : queries.findPage sample ((PageRequest.of number size).withSort sort) =
      .error (.sample (.pageOutOfRange number (PageRequest.of number size).size)) ↔
    ¬PageRequest.Countable number size
  /-- Otherwise the query for the finds is that of a statement that ends with the window of the
  page. -/
  windowed : PageRequest.Countable number size → ∃ clause : Return,
    clause.HasWindow (number.toNat * PageRequest.rows size) (PageRequest.rows size) ∧
    queries.findPage sample ((PageRequest.of number size).withSort sort) = do
      let content ← queries.prepare (.ofClauses [predicate.reading] clause) predicate .many
      let count ← queries.count sample
      return ⟨content, count, number, (PageRequest.of number size).size⟩
  /-- The page is not rejected for its numbers of rows. -/
  natural : ∀ c value, queries.findPage sample ((PageRequest.of number size).withSort sort) ≠
    .error (.render (.negativeCount c value))

namespace ExampleQueries

variable {queries : ExampleQueries} {sample : Example} {predicate : Predicate}

/-- Preparing a query never fails by `sample`, only by its text. -/
theorem prepare_ne_sample (s : Statement) (shape : ResultShape) (failure : ExampleError) :
    queries.prepare s predicate shape ≠ .error (.sample failure) := by
  rw [prepare]
  rcases PreparedQuery.prepare s predicate.parameters shape queries.renderer with _ | _
  · intro failed
    cases failed
  · intro failed
    cases failed

/-- A query whose text does not fail by `negativeCount` does not fail by it when it is prepared. -/
theorem prepare_ne_negativeCount {s : Statement} {c : CountClause} {value : Int64}
    (other : queries.renderer.render s ≠ .error (.negativeCount c value)) (shape : ResultShape) :
    queries.prepare s predicate shape ≠ .error (.render (.negativeCount c value)) := by
  rw [prepare, PreparedQuery.prepare]
  rcases s.referencedParameters.find? fun name => !predicate.parameters.contains name with
    _ | name
  · rcases rendered : queries.renderer.render s with failure | cypher
    · intro failed
      cases failed
      exact other rendered
    · intro failed
      cases failed
  · intro failed
    cases failed

/-- The query `count` of an example with a predicate is prepared from its `reading` clause and
`count(*)`. -/
theorem count_of_create (made : Predicate.create queries.schema sample = .ok predicate) :
    queries.count sample = queries.prepare (.ofClauses [predicate.reading]
      (OpenReturn.start false [Expression.asterisk.count]).close) predicate .count := by
  have stage := congrArg Projecting.build (predicate.returning_eq [Expression.asterisk.count])
  rw [count, ExampleQueries.predicate, made]
  exact congrArg (queries.prepare · predicate .count) stage

/-- The queries of `findPage` for an example with a predicate are those of its `reading` clause with
the page added by `addPaging`, and `count`. -/
theorem findPage_of_create (made : Predicate.create queries.schema sample = .ok predicate)
    (request : PageRequest) : queries.findPage sample request = do
      let stage ← ((Projecting.mk [predicate.reading] (.start false [.asterisk])).addPaging
        predicate.description request).mapError .sample
      let content ← queries.prepare stage.build predicate .many
      let count ← queries.count sample
      return ⟨content, count, request.number, request.size⟩ := by
  rw [findPage, ExampleQueries.predicate, made, ← predicate.returning_eq]
  rfl

/-- What becomes of an example when a page of its finds in an order that `Resolves` is asked for. -/
theorem findsPage (made : Predicate.create queries.schema sample = .ok predicate)
    {sort : SortOrders} (resolves : sort.Resolves predicate.description) (number size : UInt64) :
    queries.FindsPage sample predicate number size sort := by
  obtain ⟨items, ordered⟩ := resolves.exists_toSortItems
  have asked := findPage_of_create made ((PageRequest.of number size).withSort sort)
  rcases Projecting.addPaging_of ordered ⟨[predicate.reading], .start false [.asterisk]⟩
    number size with ⟨large, refused⟩ | ⟨countable, added⟩
  · rw [refused] at asked
    refine ⟨⟨fun _ => large, fun _ => asked⟩, fun countable => absurd countable large, ?_⟩
    intro c value failed
    rw [asked] at failed
    cases failed
  · have window := Projecting.hasWindow_withWindow
      ⟨[predicate.reading], .start false [.asterisk]⟩ items countable.2 countable.1
    have page : queries.findPage sample ((PageRequest.of number size).withSort sort) = do
        let content ← queries.prepare (.ofClauses [predicate.reading]
          (((Projecting.mk [predicate.reading] (.start false [.asterisk])).withWindow items
            (number.toNat * PageRequest.rows size) (PageRequest.rows size)).returning.close))
          predicate .many
        let count ← queries.count sample
        return ⟨content, count, number, (PageRequest.of number size).size⟩ := by
      rw [asked, added]
      rfl
    refine ⟨⟨fun refused => ?_, fun large => absurd countable large⟩,
      fun _ => ⟨_, window, page⟩, fun c value failed => ?_⟩
    · rw [page, count_of_create made] at refused
      rcases Attempt.bind_eq_error.mp refused with first | ⟨content, -, later⟩
      · exact absurd first (prepare_ne_sample _ _ _)
      · rcases Attempt.bind_eq_error.mp later with second | ⟨count, -, done⟩
        · exact absurd second (prepare_ne_sample _ _ _)
        · cases done
    · -- The query for the number of finds has no window.
      have skip : ∀ e, (OpenReturn.start false [Expression.asterisk.count]).close.skip = some e →
        e.IsNaturalCount := fun _ skips => nomatch skips
      have limit : ∀ e, (OpenReturn.start false [Expression.asterisk.count]).close.limit = some e →
        e.IsNaturalCount := fun _ limits => nomatch limits
      rw [page, count_of_create made] at failed
      rcases Attempt.bind_eq_error.mp failed with first | ⟨content, -, later⟩
      · exact prepare_ne_negativeCount (window.render_ne (OpenReturn.order_close_ne _) _ _ c value)
          _ first
      · rcases Attempt.bind_eq_error.mp later with second | ⟨count, -, done⟩
        · exact prepare_ne_negativeCount (Renderer.render_ne_negativeCount _
            (OpenReturn.order_close_ne _) skip limit c value) _ second
        · cases done

end ExampleQueries

/-! ## Sharing out rows -/

/-- The row with the number `row`, counted from zero, belongs to the page `number`: it is at least
`number * size` and less than `number * size + size`. -/
def PageRequest.Covers (number size : UInt64) (row : Nat) : Prop :=
  number.toNat * size.toNat ≤ row ∧ row < number.toNat * size.toNat + size.toNat

/-- The pages of `total` finds share out the rows among them, and `totalPages` counts those that
have one. -/
structure PagedQuery.SharesOut (pages : PagedQuery) (total : UInt64) : Prop where
  /-- Each row belongs to one page. -/
  unique : ∀ row < total.toNat, ∃! number, PageRequest.Covers number pages.size row
  /-- The page of a row is among those that are counted, and it is not refused. -/
  counted : ∀ row < total.toNat, ∀ number, PageRequest.Covers number pages.size row →
    number < pages.totalPages total ∧ PageRequest.Countable number pages.size
  /-- Each page that is counted has a row. -/
  inhabited : ∀ number < pages.totalPages total,
    ∃ row < total.toNat, PageRequest.Covers number pages.size row
  /-- No other page has one. -/
  empty : ∀ number, pages.totalPages total ≤ number →
    ∀ row < total.toNat, ¬PageRequest.Covers number pages.size row

/-- The multiple `factor * size` is below `total` exactly if `factor` is below `total / size`,
rounded up. -/
theorem mul_lt_iff_lt_div {factor size total : Nat} (positive : 0 < size) :
    factor * size < total ↔ factor < total / size + if total % size = 0 then 0 else 1 := by
  have whole := Nat.div_add_mod' total size
  have rest := Nat.mod_lt total positive
  by_cases even : total % size = 0
  · rw [if_pos even, Nat.add_zero]
    exact (Nat.lt_div_iff_mul_lt_of_dvd (Nat.ne_of_gt positive) (Nat.dvd_of_mod_eq_zero even)).symm
  · rw [if_neg even, Nat.lt_succ_iff, Nat.le_div_iff_mul_le positive]
    refine ⟨Nat.le_of_lt, fun most => Nat.lt_of_le_of_ne most fun same => even ?_⟩
    rw [← same]
    exact Nat.mul_mod_left factor size

/-- The number `totalPages` is `total / size`, rounded up; the addition does not overflow. -/
theorem PagedQuery.toNat_totalPages {pages : PagedQuery} {total : UInt64}
    (positive : 0 < pages.size.toNat) (counted : total.toNat ≤ greatestCount) :
    (pages.totalPages total).toNat = total.toNat / pages.size.toNat +
      if total.toNat % pages.size.toNat = 0 then 0 else 1 := by
  have paged : pages.size ≠ 0 := fun zero => by
    rw [zero] at positive
    exact Nat.lt_irrefl 0 positive
  have even : total % pages.size = 0 ↔ total.toNat % pages.size.toNat = 0 := by
    rw [← UInt64.toNat_inj, UInt64.toNat_mod]
    rfl
  have small : total.toNat / pages.size.toNat + 1 < UInt64.size :=
    Nat.lt_of_le_of_lt (Nat.succ_le_succ (Nat.le_trans (Nat.div_le_self _ _) counted)) (by decide)
  rw [totalPages, if_neg paged, UInt64.toNat_add, UInt64.toNat_div]
  by_cases whole : total % pages.size = 0
  · rw [if_pos whole, if_pos (even.mp whole)]
    exact Nat.mod_eq_of_lt (Nat.lt_of_succ_lt small)
  · rw [if_neg whole, if_neg fun zero => whole (even.mpr zero)]
    exact Nat.mod_eq_of_lt small

/-- A page is below `totalPages` exactly if `number * size < total`, so that there is a row behind
the earlier pages. -/
theorem PagedQuery.lt_totalPages {pages : PagedQuery} {total number : UInt64}
    (positive : 0 < pages.size.toNat) (counted : total.toNat ≤ greatestCount) :
    number < pages.totalPages total ↔ number.toNat * pages.size.toNat < total.toNat := by
  rw [UInt64.lt_iff_toNat_lt, toNat_totalPages positive counted, mul_lt_iff_lt_div positive]

/-- The page that `Covers` a row has the number `row / size`. -/
theorem PageRequest.covers_iff {number size : UInt64} {row : Nat} (positive : 0 < size.toNat) :
    Covers number size row ↔ row / size.toNat = number.toNat := by
  rw [Covers, Nat.div_eq_iff positive]
  constructor <;> omega

/-- Pages of a positive size `SharesOut` any total, if both are at most `greatestCount`. -/
theorem PagedQuery.sharesOut {pages : PagedQuery} {total : UInt64}
    (positive : 0 < pages.size.toNat) (sized : pages.size.toNat ≤ greatestCount)
    (counted : total.toNat ≤ greatestCount) : pages.SharesOut total where
  unique row below := by
    have small : row / pages.size.toNat < UInt64.size :=
      Nat.lt_of_le_of_lt (Nat.div_le_self row _) (Nat.lt_trans below total.toNat_lt)
    have own : (UInt64.ofNat (row / pages.size.toNat)).toNat = row / pages.size.toNat :=
      UInt64.toNat_ofNat_of_lt small
    refine ⟨_, (PageRequest.covers_iff positive).mpr own.symm, fun number covers => ?_⟩
    rw [← UInt64.toNat_inj, own, (PageRequest.covers_iff positive).mp covers]
  counted row below number covers := by
    have within := Nat.lt_of_le_of_lt covers.1 below
    have rows : PageRequest.rows pages.size = pages.size.toNat := Nat.max_eq_right positive
    refine ⟨(lt_totalPages positive counted).mpr within, ?_⟩
    rw [PageRequest.Countable, rows]
    exact ⟨sized, Nat.le_trans (Nat.le_of_lt within) counted⟩
  inhabited number among :=
    ⟨_, (lt_totalPages positive counted).mp among, Nat.le_refl _, Nat.lt_add_of_pos_right positive⟩
  empty number beyond row below covers := by
    have among := (lt_totalPages positive counted).mpr (Nat.lt_of_le_of_lt covers.1 below)
    exact absurd among (UInt64.not_lt.mpr beyond)

/-- A page of any rows (`AddsPage`), or of the finds of an example (`FindsPage`), in an order that
the description `Resolves` is refused exactly if clauses cannot count its rows or those before it.
Otherwise its window has exactly these numbers, and the text is never rejected for them. Pages of a
size that clauses can count share out (`SharesOut`) as many rows as clauses can count: each row
belongs to exactly one page, which is counted and is not refused, and the pages that are counted are
those with a row. -/
theorem pages_share_out_rows :
    (∀ (stage : Projecting) (description : NodeDescription) (number size : UInt64)
      (sort : SortOrders), sort.Resolves description →
        stage.AddsPage description number size sort) ∧
    (∀ (queries : ExampleQueries) (sample : Example) (predicate : Predicate)
      (number size : UInt64) (sort : SortOrders),
      Predicate.create queries.schema sample = .ok predicate →
      sort.Resolves predicate.description →
        queries.FindsPage sample predicate number size sort) ∧
    ∀ (pages : PagedQuery) (total : UInt64), 0 < pages.size.toNat →
      pages.size.toNat ≤ greatestCount → total.toNat ≤ greatestCount → pages.SharesOut total :=
  ⟨fun stage _ number size _ resolves => stage.addsPage resolves number size,
    fun _ _ _ number size _ made resolves => ExampleQueries.findsPage made resolves number size,
    fun _ _ positive sized counted => PagedQuery.sharesOut positive sized counted⟩

/-- The third page of people by name, `PageRequest.of 2 25`, leaves out 50 rows; the last page that
there can be is refused; and eleven people make pages of ten. -/
theorem pages_share_out_people :
    (∃ clause : Return, clause.HasWindow 50 25 ∧
      ((Projecting.mk [] (.start false [.asterisk])).addPaging
        ⟨"Person", "Person", [], [.simple "name"]⟩
        ((PageRequest.of 2 25).withSort [⟨"name", .descending, false⟩])).map Projecting.build =
          .ok (.ofClauses [] clause)) ∧
    startsWithQueries.findPage startsWithExample
      ((PageRequest.of 18446744073709551615 25).withSort [⟨"name", .descending, false⟩]) =
        .error (.sample (.pageOutOfRange 18446744073709551615 25)) ∧
    (PagedQuery.mk ⟨"", .empty, .many⟩ ⟨"", .empty, .count⟩ 0 10).SharesOut 11 := by
  have resolves : SortOrders.Resolves [⟨"name", .descending, false⟩]
      ⟨"Person", "Person", [], [.simple "name"]⟩ :=
    List.forall_mem_singleton.mpr ⟨.simple "name", rfl, rfl⟩
  obtain ⟨adding, finding, sharing⟩ := pages_share_out_rows
  refine ⟨?_, ?_, sharing _ 11 (by decide) (by decide) (by decide)⟩
  · have added := adding (.mk [] (.start false [.asterisk])) _ 2 25 _ resolves
    obtain ⟨items, clause, -, same, -, -, window, -⟩ := added.windowed (by decide)
    exact ⟨clause, window, same⟩
  · obtain ⟨predicate, made⟩ : ∃ predicate,
        Predicate.create startsWithQueries.schema startsWithExample = .ok predicate := ⟨_, rfl⟩
    have described : predicate.description = ⟨"Person", "Person", [], [.simple "name"]⟩ := by
      cases made
      rfl
    rw [← described] at resolves
    exact (finding _ _ predicate _ 25 _ made resolves).refused.mpr (by decide)

end CypherQuery
