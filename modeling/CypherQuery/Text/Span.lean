/-! # Spans of source text

Positions in a source text are counted in bytes of its UTF-8 encoding, `byteLength`. A `Span` is a
range of them, and `slice` the characters that it covers. -/

namespace CypherQuery

/-- The number of bytes that a run of characters takes in UTF-8: the sum of `Char.utf8Size`. -/
def byteLength : List Char → Nat
  | [] => 0
  | c :: text => c.utf8Size + byteLength text

/-- The empty text takes no bytes. -/
@[simp] theorem byteLength_nil : byteLength [] = 0 := rfl

/-- A character adds its `utf8Size` to the bytes of the text behind it. -/
@[simp] theorem byteLength_cons (c : Char) (text : List Char) :
    byteLength (c :: text) = c.utf8Size + byteLength text := rfl

/-- The bytes of `first ++ second` are those of both together. -/
@[simp] theorem byteLength_append (first second : List Char) :
    byteLength (first ++ second) = byteLength first + byteLength second := by
  induction first with
  | nil => simp
  | cons c first ih => simp [ih, Nat.add_assoc]

/-- Only the empty text has a `byteLength` of zero. -/
theorem byteLength_pos {text : List Char} (nonempty : text ≠ []) : 0 < byteLength text := by
  cases text with
  | nil => exact absurd rfl nonempty
  | cons c text => exact Nat.lt_of_lt_of_le c.utf8Size_pos (Nat.le_add_right _ _)

/-- The part of a text after its first `count` bytes, in whole characters. -/
def dropBytes : Nat → List Char → List Char
  | 0, text => text
  | _ + 1, [] => []
  | count + 1, c :: text => dropBytes (count + 1 - c.utf8Size) text

/-- The part of a text within its first `count` bytes, in whole characters. -/
def takeBytes : Nat → List Char → List Char
  | 0, _ => []
  | _ + 1, [] => []
  | count + 1, c :: text => c :: takeBytes (count + 1 - c.utf8Size) text

/-- Dropping no bytes leaves the text. -/
@[simp] theorem dropBytes_zero (text : List Char) : dropBytes 0 text = text := by
  cases text <;> rfl

/-- Taking no bytes gives nothing. -/
@[simp] theorem takeBytes_zero (text : List Char) : takeBytes 0 text = [] := by
  cases text <;> rfl

/-- Dropping the `byteLength` of a first part leaves the second. -/
@[simp] theorem dropBytes_append (first second : List Char) :
    dropBytes (byteLength first) (first ++ second) = second := by
  induction first with
  | nil => simp
  | cons c first ih =>
      obtain ⟨width, same⟩ := Nat.exists_eq_add_one.mpr c.utf8Size_pos
      have total : byteLength (c :: first) = (width + byteLength first) + 1 := by
        simp [same]; omega
      rw [total, List.cons_append, dropBytes, same]
      simpa [Nat.add_comm, Nat.add_left_comm] using ih

/-- Taking the `byteLength` of a first part gives the first part. -/
@[simp] theorem takeBytes_append (first second : List Char) :
    takeBytes (byteLength first) (first ++ second) = first := by
  induction first with
  | nil => simp
  | cons c first ih =>
      obtain ⟨width, same⟩ := Nat.exists_eq_add_one.mpr c.utf8Size_pos
      have total : byteLength (c :: first) = (width + byteLength first) + 1 := by
        simp [same]; omega
      rw [total, List.cons_append, takeBytes, same]
      simpa [Nat.add_comm, Nat.add_left_comm] using ih

/-- A range of bytes in a source text. -/
structure Span where
  /-- The byte at which the range starts. -/
  start : Nat
  /-- The byte before which the range ends. -/
  stop : Nat
  deriving DecidableEq, Repr

namespace Span

/-- The characters of a text that a span covers, from `span.start` to `span.stop`. -/
def slice (span : Span) (text : List Char) : List Char :=
  takeBytes (span.stop - span.start) (dropBytes span.start text)

/-- The span of a middle part, counted by `byteLength`, covers that part. -/
@[simp] theorem slice_append (first middle last : List Char) :
    slice ⟨byteLength first, byteLength first + byteLength middle⟩
      (first ++ (middle ++ last)) = middle := by
  simp [slice]

end Span

end CypherQuery
