import CypherQuery.Proofs.Token.Coverage

/-! # Integers that are too large

A fault may consist of digits (`Span.CoversDigits`). Then it is an integer as far as its text goes,
so that digits that no digit and no fraction follows, and only its value is too large
(`Span.CoversLargeInteger`): the two are the same for the faults of a scan, `coversDigits_iff`. -/

namespace CypherQuery

/-- A span covers digits, at least one, and nothing else: a statement about its `Span.slice`. -/
def Span.CoversDigits (span : Span) (source : String) : Prop :=
  span.slice source.toList ≠ [] ∧ ∀ c ∈ span.slice source.toList, c.isDigit = true

/-- Whether a span covers digits can be computed. -/
instance (span : Span) (source : String) : Decidable (span.CoversDigits source) :=
  let text := span.slice source.toList
  decidable_of_iff (text ≠ [] ∧ text.all Char.isDigit = true) (and_congr_right' List.all_eq_true)

/-- A span covers the text of an integer whose value is too large for an `Int64`. The text is as
long as it can be: neither a digit follows nor a point with a digit behind it, `Scan.EndsNumber`. -/
inductive Span.CoversLargeInteger (source : String) : Span → Prop where
  /-- Digits between two other parts of the source. -/
  | intro {before digits after : List Char} (whole : source.toList = before ++ (digits ++ after))
      (nonempty : digits ≠ []) (all : ∀ c ∈ digits, c.isDigit = true)
      (ends : Scan.EndsNumber after)
      (large : Int64.maxValue.toNatClampNeg < ofDigits digits) :
      CoversLargeInteger source ⟨byteLength before, byteLength before + byteLength digits⟩

/-- The covered digits are too large for an integer: `ofDigits` of the slice is above
`Int64.maxValue`. -/
theorem Span.CoversLargeInteger.lt_ofDigits {source : String} {span : Span}
    (covers : span.CoversLargeInteger source) :
    Int64.maxValue.toNatClampNeg < ofDigits (span.slice source.toList) := by
  obtain ⟨whole, -, -, -, large⟩ := covers
  rw [whole, Span.slice_append]
  exact large

namespace Scan

/-- One of the `pieces` is read by `piece` where the pieces before it end, and those behind it are
read from the rest. -/
theorem exists_piece_of_pieces_eq {text : List Char} {first last : List Piece} {part : Piece}
    (split : pieces text = first ++ part :: last) :
    ∃ c tail, text = first.flatMap Piece.text ++ c :: tail ∧ (piece c tail).1 = part ∧
      pieces (piece c tail).2 = last := by
  induction first generalizing text with
  | nil =>
      cases text with
      | nil => rw [pieces] at split; cases split
      | cons c tail =>
          rw [pieces] at split
          obtain ⟨own, rest⟩ := List.cons.inj split
          exact ⟨c, tail, rfl, own, rest⟩
  | cons one others ih =>
      cases text with
      | nil => rw [pieces] at split; cases split
      | cons d more =>
          rw [pieces] at split
          obtain ⟨rfl, rest⟩ := List.cons.inj split
          obtain ⟨c, tail, behind, read⟩ := ih rest
          refine ⟨c, tail, ?_, read⟩
          rw [List.flatMap_cons, List.append_assoc, ← behind, piece_append]

/-- What is behind all digits goes on with no number, `EndsNumber`, if it does not start with a
point and a digit. -/
theorem endsNumber_dropWhile {text : List Char}
    (noFraction : ∀ d behind, text.dropWhile Char.isDigit = '.' :: d :: behind →
      d.isDigit = false) : EndsNumber (text.dropWhile Char.isDigit) := by
  cases rest : text.dropWhile Char.isDigit with
  | nil => trivial
  | cons c behind =>
      rw [rest] at noFraction
      have stop := List.head?_dropWhile_not Char.isDigit text
      rw [rest] at stop
      refine ⟨stop, ?_⟩
      rintro rfl d next
      obtain ⟨others, rfl⟩ := List.head?_eq_some_iff.mp next
      exact noFraction d others rfl

/-- Digits of which `number` makes a fault are followed by what goes on with no number. -/
theorem endsNumber_of_fault {c : Char} {tail : List Char}
    (faulty : (number c tail).1.isFault = true) : EndsNumber (number c tail).2 := by
  unfold number at faulty ⊢
  dsimp only at faulty ⊢
  split at faulty
  · next p d behind rest =>
      split at faulty
      · cases faulty
      · next other =>
          rw [if_neg other]
          refine endsNumber_dropWhile fun next others same => ?_
          rw [rest] at same
          cases same
          simpa using other
  · next none =>
      refine endsNumber_dropWhile fun d behind same => absurd same (none _ _ _)

end Scan

/-- A fault of a `scan` is read by `Scan.piece` from the place where it starts. -/
theorem exists_read_of_mem_faults {source : String} {fault : Span}
    (member : fault ∈ (scan source).faults) :
    ∃ before c tail text, source.toList = before ++ (text ++ (Scan.piece c tail).2) ∧
      (Scan.piece c tail).1 = .fault text ∧
      fault = ⟨byteLength before, byteLength before + byteLength text⟩ := by
  obtain ⟨text, located⟩ := exists_piece_of_mem_faults member
  obtain ⟨first, last, split, start, stop⟩ := Piece.exists_of_mem_locate located
  obtain ⟨c, tail, whole, read, -⟩ := Scan.exists_piece_of_pieces_eq split
  have behind := Scan.piece_append c tail
  rw [read] at behind
  rw [Nat.zero_add] at start
  refine ⟨first.flatMap Piece.text, c, tail, text, ?_, read, ?_⟩
  · rw [whole, ← behind]
    rfl
  · rw [← start]
    exact congrArg (Span.mk fault.start) stop

/-- A fault of a `scan` covers digits exactly if it is an integer whose value is too large. -/
theorem coversDigits_iff {source : String} {fault : Span} (member : fault ∈ (scan source).faults) :
    fault.CoversDigits source ↔ fault.CoversLargeInteger source := by
  constructor
  · rintro ⟨nonempty, all⟩
    obtain ⟨before, c, tail, text, whole, read, rfl⟩ := exists_read_of_mem_faults member
    rw [whole, Span.slice_append] at nonempty all
    have sound := Scan.isSound_piece c tail
    have first := Scan.head?_text_piece c tail
    rw [read] at sound first
    -- The scanner takes what starts with a digit for a number.
    have digit : c.isDigit = true := all c (List.mem_of_mem_head? first)
    rw [Scan.piece_of_isDigit digit] at whole read
    have ends := Scan.endsNumber_of_fault (by rw [read]; rfl)
    exact .intro whole nonempty all ends (sound all)
  · rintro ⟨whole, nonempty, all, -, -⟩
    rw [Span.CoversDigits, whole, Span.slice_append]
    exact ⟨nonempty, all⟩

end CypherQuery
