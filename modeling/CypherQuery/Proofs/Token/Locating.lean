import CypherQuery.Proofs.Token.Lexeme

/-! # Where tokens and faults stand

The tokens and faults of a `scan` are those among the `pieces` of the source (`tokens_scan`,
`slices_scan`). The span of a fault covers its text, and no two pieces share a byte
(`disjoint_scan`). Not every token can come from a scan; those that can are `Token.IsScanned`. -/

namespace CypherQuery

/-- The tokens among pieces, in order: those that `token?` finds. -/
def tokensOf (parts : List Piece) : List Token :=
  parts.filterMap Piece.token?

/-- The function `tokensOf` takes pieces one behind the other to their tokens one behind the
other. -/
theorem tokensOf_append (parts others : List Piece) :
    tokensOf (parts ++ others) = tokensOf parts ++ tokensOf others :=
  List.filterMap_append

/-- Two spans without a common byte: the one stops before the other starts. -/
def Span.Disjoint (a b : Span) : Prop :=
  a.stop ≤ b.start ∨ b.stop ≤ a.start

namespace Piece

/-- The located tokens are the tokens among the pieces: `Piece.locate` loses and adds none. -/
theorem token?_locate (parts : List Piece) (offset : Nat) :
    ((locate offset parts).filterMap Located.token?).map Located.value = tokensOf parts := by
  induction parts generalizing offset with
  | nil => rfl
  | cons part rest ih =>
      cases part with
      | token found text => exact congrArg (found :: ·) (ih _)
      | blank text => exact ih _
      | fault text => exact ih _

/-- The located faults cover, by `Span.slice`, the texts of the faults among the pieces. -/
theorem fault?_locate (parts : List Piece) (before : List Char) :
    ((locate (byteLength before) parts).filterMap Located.fault?).map
        (fun span => span.slice (before ++ parts.flatMap text))
      = (parts.filter isFault).map text := by
  induction parts generalizing before with
  | nil => rfl
  | cons part rest ih =>
      -- The text before the rest grows by the piece, so that all spans are cut out of one text.
      have others := ih (before ++ part.text)
      rw [byteLength_append, List.append_assoc] at others
      cases part with
      | token found text => exact others
      | blank text => exact others
      | fault text =>
          have own := Span.slice_append before text (rest.flatMap Piece.text)
          show _ :: _ = text :: _
          rw [← others]
          exact congrArg (· :: _) own

/-- No located piece starts before the `offset` of the first one. -/
theorem le_start_locate {parts : List Piece} {offset : Nat} :
    ∀ piece ∈ locate offset parts, offset ≤ piece.span.start := by
  induction parts generalizing offset with
  | nil => intro piece member; cases member
  | cons part rest ih =>
      rw [locate]
      intro piece member
      rcases List.mem_cons.mp member with rfl | later
      · exact Nat.le_refl offset
      · exact Nat.le_trans (Nat.le_add_right offset _) (ih piece later)

/-- Each located piece ends where a later one starts, or before:
`first.span.stop ≤ second.span.start`. -/
theorem pairwise_locate (parts : List Piece) (offset : Nat) :
    (locate offset parts).Pairwise fun first second => first.span.stop ≤ second.span.start := by
  induction parts generalizing offset with
  | nil => exact List.Pairwise.nil
  | cons part rest ih =>
      rw [locate, List.pairwise_cons]
      exact ⟨fun later member => le_start_locate later member, ih _⟩

end Piece

/-- The tokens of a `scan` are the tokens among the `pieces` of the source. -/
theorem tokens_scan (source : String) :
    (scan source).tokens.map Located.value = tokensOf (Scan.pieces source.toList) :=
  Piece.token?_locate _ 0

/-- The faults of a `scan` cover the texts of the faults among the `pieces` of the source. -/
theorem slices_scan (source : String) :
    (scan source).faults.map (fun span => span.slice source.toList)
      = ((Scan.pieces source.toList).filter Piece.isFault).map Piece.text := by
  have slices := Piece.fault?_locate (Scan.pieces source.toList) []
  rw [Scan.flatMap_text_pieces] at slices
  exact slices

/-- A text is clean, `Scan.isClean`, if and only if none of its pieces is a fault. -/
theorem isClean_scan (source : String) :
    (scan source).isClean = true ↔ ∀ piece ∈ Scan.pieces source.toList, piece.isFault = false := by
  have slices := congrArg List.length (slices_scan source)
  rw [List.length_map, List.length_map] at slices
  rw [Scan.isClean, List.isEmpty_iff, ← List.length_eq_zero_iff, slices,
    List.length_eq_zero_iff, List.filter_eq_nil_iff]
  simp only [Bool.not_eq_true]

/-- No fault of a `scan` shares a byte with a token. -/
theorem disjoint_scan {source : String} {token : Located Token} {fault : Span}
    (isToken : token ∈ (scan source).tokens) (isFault : fault ∈ (scan source).faults) :
    token.span.Disjoint fault := by
  obtain ⟨first, isFirst, read⟩ := List.mem_filterMap.mp isToken
  obtain ⟨second, isSecond, faulty⟩ := List.mem_filterMap.mp isFault
  -- Two located pieces are either the same one or follow each other.
  have follow : first = second ∨ first.span.Disjoint second.span := by
    have ordered := Piece.pairwise_locate (Scan.pieces source.toList) 0
    generalize Piece.locate 0 (Scan.pieces source.toList) = located at isFirst isSecond ordered
    refine List.Pairwise.forall_of_forall_of_flip (R := fun a b => a = b ∨ a.span.Disjoint b.span)
      (fun _ _ => .inl rfl) ?_ ?_ isFirst isSecond
    · exact ordered.imp fun before => .inr (.inl before)
    · exact ordered.imp fun before => .inr (.inr before)
  rw [Located.token?, Option.map_eq_some_iff] at read
  obtain ⟨found, isFound, rfl⟩ := read
  rw [Located.fault?] at faulty
  split at faulty
  · next known =>
      cases faulty
      rcases follow with rfl | disjoint
      · cases same : first.value with
        | token => rw [same] at known; cases known
        | blank => rw [same] at isFound; cases isFound
        | fault => rw [same] at isFound; cases isFound
      · exact disjoint
  · cases faulty

/-- None of the `pieces` of a text is empty. -/
theorem Scan.text_ne_nil_of_mem_pieces {text : List Char} :
    ∀ part ∈ pieces text, part.text ≠ [] := by
  fun_induction pieces text with
  | case1 => exact List.forall_mem_nil _
  | case2 c text ih => exact List.forall_mem_cons.mpr ⟨text_piece_ne_nil c text, ih⟩

/-! ## Faults among tokens -/

/-- The faults among pieces, each with its text and the number of tokens before it, of which `count`
have been counted already. -/
def Piece.places (count : Nat) : List Piece → List (List Char × Nat)
  | [] => []
  | .blank _ :: rest => places count rest
  | .token _ _ :: rest => places (count + 1) rest
  | .fault text :: rest => (text, count) :: places count rest

/-- The faults of a source text, each with its text and the number of tokens before it, as `scan`
locates them. -/
def faultPlaces (source : String) : List (List Char × Nat) :=
  (scan source).faults.map fun fault => (fault.slice source.toList,
    (scan source).tokens.countP fun token => token.span.stop ≤ fault.start)

/-- A located piece does not end before it starts: `start ≤ stop`. -/
theorem Piece.start_le_stop_locate {parts : List Piece} {offset : Nat} :
    ∀ piece ∈ locate offset parts, piece.span.start ≤ piece.span.stop := by
  induction parts generalizing offset with
  | nil => exact fun piece member => absurd member List.not_mem_nil
  | cons part rest ih => exact List.forall_mem_cons.mpr ⟨Nat.le_add_right offset _, ih⟩

/-- No located token ends before the `offset` at which the first piece starts. -/
theorem Piece.le_stop_token {parts : List Piece} {offset : Nat} :
    ∀ token ∈ (locate offset parts).filterMap Located.token?, offset ≤ token.span.stop := by
  intro token member
  obtain ⟨piece, located, read⟩ := List.mem_filterMap.mp member
  obtain ⟨found, -, rfl⟩ := Option.map_eq_some_iff.mp read
  exact Nat.le_trans (le_start_locate piece located) (start_le_stop_locate piece located)

/-- The located faults stand behind as many located tokens as `Piece.places` counts among the
pieces. -/
theorem Piece.places_locate {parts : List Piece} (nonempty : ∀ part ∈ parts, part.text ≠ [])
    (before : List Char) (earlier : List (Located Token))
    (done : ∀ token ∈ earlier, token.span.stop ≤ byteLength before) :
    ((locate (byteLength before) parts).filterMap Located.fault?).map (fun fault =>
        (fault.slice (before ++ parts.flatMap text),
          (earlier ++ (locate (byteLength before) parts).filterMap Located.token?).countP
            fun token => token.span.stop ≤ fault.start))
      = places earlier.length parts := by
  induction parts generalizing before earlier with
  | nil => rfl
  | cons part rest ih =>
      obtain ⟨visible, later⟩ := List.forall_mem_cons.mp nonempty
      have longer : byteLength before ≤ byteLength (before ++ part.text) := by
        rw [byteLength_append]
        exact Nat.le_add_right _ _
      have still : ∀ token ∈ earlier, token.span.stop ≤ byteLength (before ++ part.text) :=
        fun token member => Nat.le_trans (done token member) longer
      cases part with
      | blank text =>
          have others := ih later (before ++ text) earlier still
          rw [byteLength_append, List.append_assoc] at others
          exact others
      | token found text =>
          let token : Located Token :=
            ⟨found, ⟨byteLength before, byteLength before + byteLength text⟩⟩
          have ends : token.span.stop ≤ byteLength (before ++ text) :=
            Nat.le_of_eq (byteLength_append before text).symm
          have others := ih later (before ++ text) (earlier ++ [token])
            (List.forall_mem_append.mpr ⟨still, List.forall_mem_singleton.mpr ends⟩)
          rw [byteLength_append, List.append_assoc before, List.append_assoc earlier,
            List.length_append] at others
          exact others
      | fault text =>
          have others := ih later (before ++ text) earlier still
          rw [byteLength_append, List.append_assoc] at others
          have own := Span.slice_append before text (rest.flatMap Piece.text)
          -- All tokens so far end before the fault, and all others end behind its start.
          have first : earlier.countP (fun token => token.span.stop ≤ byteLength before) =
              earlier.length := by
            rw [List.countP_eq_length]
            exact fun token member => decide_eq_true (done token member)
          have none : ((locate (byteLength before + byteLength text) rest).filterMap
              Located.token?).countP (fun token => token.span.stop ≤ byteLength before) = 0 := by
            rw [List.countP_eq_zero]
            intro token member
            have behind := le_stop_token token member
            have some := byteLength_pos visible
            exact mt of_decide_eq_true (by rw [Piece.text] at some; omega)
          have counted : (earlier ++ (locate (byteLength before + byteLength text) rest).filterMap
              Located.token?).countP (fun token => token.span.stop ≤ byteLength before) =
              earlier.length := by
            rw [List.countP_append, first, none, Nat.add_zero]
          show _ :: _ = (text, earlier.length) :: _
          rw [← others]
          exact congrArg (· :: _) (Prod.ext own counted)

/-- The faults of a source text, `faultPlaces`, are those among its pieces, behind the same
tokens. -/
theorem faultPlaces_eq (source : String) :
    faultPlaces source = Piece.places 0 (Scan.pieces source.toList) := by
  have visible : ∀ part ∈ Scan.pieces source.toList, part.text ≠ [] :=
    Scan.text_ne_nil_of_mem_pieces
  have places := Piece.places_locate visible [] [] (List.forall_mem_nil _)
  rw [List.nil_append, List.nil_append, Scan.flatMap_text_pieces] at places
  exact places

/-! ## Tokens that are scanned -/

/-- What a token that was scanned can be: a `parameter` is an identifier, and an `integer` is not
negative. -/
def Token.IsScanned : Token → Prop
  | .parameter name => Name.isIdentifier name = true
  | .integer value => 0 ≤ value.toInt
  | _ => True

/-- A mark, as `Scan.mark?` knows it, can be scanned. -/
theorem isScanned_mark (c : Char) : ∀ token ∈ Scan.mark? c, token.IsScanned := by
  unfold Scan.mark?
  iterate 11 refine Scan.forall_mem_ite (fun _ => trivial) ?_
  intro found isToken
  cases isToken

/-- A token that a text stands for, `Token.Lexeme`, can be scanned. -/
theorem Token.Lexeme.isScanned {token : Token} {text : List Char} (lexeme : token.Lexeme text) :
    token.IsScanned := by
  cases lexeme with
  | mark known => exact isScanned_mark _ token known
  | parameter proper => exact proper
  | integer nonempty all fits =>
      have bound : Int64.maxValue.toNatClampNeg = 9223372036854775807 := by decide
      show 0 ≤ (Int64.ofNat (ofDigits text)).toInt
      rw [Int64.toInt_ofNat_of_lt (by omega)]
      exact Int.natCast_nonneg _
  | _ => trivial

/-- The tokens of a `scan` can be scanned, `Token.IsScanned`. -/
theorem isScanned_scan {source : String} :
    ∀ token ∈ (scan source).tokens.map Located.value, token.IsScanned := by
  rw [tokens_scan]
  intro token member
  obtain ⟨part, among, isToken⟩ := List.mem_filterMap.mp member
  have sound := Scan.isSound_pieces source.toList part among
  cases part with
  | token found text => cases isToken; exact sound.isScanned
  | blank => cases isToken
  | fault => cases isToken

end CypherQuery
