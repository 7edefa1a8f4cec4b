import CypherQuery.Proofs.Token.Locating

/-! # Spans account for the source

The spans of tokens and faults are parts of the source between whole characters (`Span.Fits`), no
two of them share a byte (`pairwise_spans_scan`), and only blanks are left over
(`mem_blankBytes_of_uncovered`). Each token can be read again from its own span (`scan_lexeme`).
Together this is `scanning_accounts_for_source`. -/

namespace CypherQuery

/-! ## Bytes of a text -/

/-- The bytes of a text in UTF-8, `String.utf8EncodeChar` of each of its characters. -/
def utf8Bytes (text : List Char) : List UInt8 :=
  text.flatMap String.utf8EncodeChar

/-- A text has as many bytes as its characters take, `byteLength`. -/
theorem length_utf8Bytes (text : List Char) : (utf8Bytes text).length = byteLength text := by
  induction text with
  | nil => rfl
  | cons c text ih =>
      rw [utf8Bytes, List.flatMap_cons, List.length_append, String.length_utf8EncodeChar,
        byteLength_cons, ← ih, utf8Bytes]

/-- The bytes of two texts in a row are `utf8Bytes` of the first and of the second. -/
theorem utf8Bytes_append (first second : List Char) :
    utf8Bytes (first ++ second) = utf8Bytes first ++ utf8Bytes second :=
  List.flatMap_append

/-- The bytes of a string are the `utf8Bytes` of its characters. -/
theorem data_toByteArray (source : String) :
    source.toByteArray.data = (utf8Bytes source.toList).toArray := by
  have encoded := String.toByteArray_ofList (l := source.toList)
  rw [String.ofList_toList] at encoded
  rw [encoded, List.utf8Encode, List.data_toByteArray, utf8Bytes]

/-- A string takes as many bytes as its characters, `byteLength`. -/
theorem utf8ByteSize_ofList (text : List Char) :
    (String.ofList text).utf8ByteSize = byteLength text := by
  rw [String.utf8ByteSize, String.toByteArray_ofList, List.utf8Encode, List.size_toByteArray,
    ← utf8Bytes, length_utf8Bytes]

/-- The characters of a string take as many bytes as the string: `byteLength` is `utf8ByteSize`. -/
theorem byteLength_toList (source : String) : byteLength source.toList = source.utf8ByteSize := by
  rw [← utf8ByteSize_ofList, String.ofList_toList]

/-- The place behind a first part of a text is not inside of a character: `String.Pos.Raw.IsValid`
holds of its `byteLength`. -/
theorem isValid_byteLength {source : String} {before after : List Char}
    (whole : source.toList = before ++ after) :
    String.Pos.Raw.IsValid source ⟨byteLength before⟩ := by
  have same : source = String.ofList before ++ String.ofList after := by
    rw [← String.ofList_append, ← whole, String.ofList_toList]
  refine String.Pos.Raw.isValid_iff_exists_append.mpr ⟨_, _, same, ?_⟩
  rw [String.rawEndPos, utf8ByteSize_ofList]

/-! ## Pieces in their places -/

/-- A located piece has the pieces before it in front: they take the bytes from `offset` to its
start. -/
theorem Piece.exists_of_mem_locate {parts : List Piece} {offset : Nat} {piece : Located Piece}
    (member : piece ∈ locate offset parts) :
    ∃ first last, parts = first ++ piece.value :: last ∧
      piece.span.start = offset + byteLength (first.flatMap text) ∧
      piece.span.stop = piece.span.start + byteLength piece.value.text := by
  induction parts generalizing offset with
  | nil => cases member
  | cons part rest ih =>
      rcases List.mem_cons.mp member with rfl | later
      · exact ⟨[], rest, rfl, by simp, rfl⟩
      · obtain ⟨first, last, rfl, start, stop⟩ := ih later
        refine ⟨part :: first, last, rfl, ?_, stop⟩
        rw [start, List.flatMap_cons, byteLength_append, Nat.add_assoc]

/-- A located piece of a source is cut out of it by its span: the text before it has `byteLength` up
to the start. -/
theorem exists_cut_of_mem_locate {source : String} {piece : Located Piece}
    (member : piece ∈ Piece.locate 0 (Scan.pieces source.toList)) :
    ∃ before after, source.toList = before ++ (piece.value.text ++ after) ∧
      piece.span = ⟨byteLength before, byteLength before + byteLength piece.value.text⟩ ∧
      piece.value ∈ Scan.pieces source.toList := by
  obtain ⟨first, last, split, start, stop⟩ := Piece.exists_of_mem_locate member
  have whole := Scan.flatMap_text_pieces source.toList
  rw [split, List.flatMap_append, List.flatMap_cons] at whole
  refine ⟨first.flatMap Piece.text, last.flatMap Piece.text, whole.symm, ?_, ?_⟩
  · rw [Nat.zero_add] at start
    rw [← start, ← stop]
  · rw [split]
    exact List.mem_append_right first List.mem_cons_self

/-- A token of a `scan` is a located piece of the source. -/
theorem exists_piece_of_mem_tokens {source : String} {token : Located Token}
    (member : token ∈ (scan source).tokens) :
    ∃ text, ⟨.token token.value text, token.span⟩ ∈
      Piece.locate 0 (Scan.pieces source.toList) := by
  obtain ⟨⟨part, span⟩, among, read⟩ := List.mem_filterMap.mp member
  obtain ⟨found, isToken, rfl⟩ := Option.map_eq_some_iff.mp read
  cases part with
  | token own text => cases isToken; exact ⟨text, among⟩
  | blank => cases isToken
  | fault => cases isToken

/-- A fault of a `scan` is a located piece of the source. -/
theorem exists_piece_of_mem_faults {source : String} {span : Span}
    (member : span ∈ (scan source).faults) :
    ∃ text, ⟨.fault text, span⟩ ∈ Piece.locate 0 (Scan.pieces source.toList) := by
  obtain ⟨⟨part, own⟩, among, read⟩ := List.mem_filterMap.mp member
  cases part with
  | fault text => cases read; exact ⟨text, among⟩
  | blank => cases read
  | token => cases read

/-! ## Spans of a scan -/

/-- A span that covers some whole characters of a source, at least one. -/
structure Span.Fits (span : Span) (source : String) : Prop where
  /-- The span covers at least one byte. -/
  nonempty : span.start < span.stop
  /-- The span does not go beyond the end. -/
  inside : span.stop ≤ source.utf8ByteSize
  /-- The span starts where a character starts. -/
  startsBetween : String.Pos.Raw.IsValid source ⟨span.start⟩
  /-- The span stops where a character stops. -/
  stopsBetween : String.Pos.Raw.IsValid source ⟨span.stop⟩

/-- A span between whole characters of a source, which, unlike one that `Fits`, may be empty. -/
structure Span.IsWithin (span : Span) (source : String) : Prop where
  /-- The span does not stop before it starts. -/
  ordered : span.start ≤ span.stop
  /-- The span does not go beyond the end. -/
  inside : span.stop ≤ source.utf8ByteSize
  /-- The span starts where a character starts or the source ends. -/
  startsBetween : String.Pos.Raw.IsValid source ⟨span.start⟩
  /-- The span stops where a character starts or the source ends. -/
  stopsBetween : String.Pos.Raw.IsValid source ⟨span.stop⟩

/-- A span covers the byte `i`: it starts there or before, and stops behind it. -/
def Span.Covers (span : Span) (i : Nat) : Prop :=
  span.start ≤ i ∧ i < span.stop

/-- The spans of the `tokens` and of the `faults` of a scan. -/
def Scan.spans (s : Scan) : List Span :=
  s.tokens.map Located.span ++ s.faults

/-- The span of a part of a source, from `byteLength before` on, is within the source. -/
theorem Span.isWithin_of_cut {source : String} {before middle after : List Char}
    (whole : source.toList = before ++ (middle ++ after)) :
    Span.IsWithin ⟨byteLength before, byteLength before + byteLength middle⟩ source := by
  have size := byteLength_toList source
  rw [whole, byteLength_append, byteLength_append] at size
  have room : byteLength before + byteLength middle ≤ source.utf8ByteSize := by omega
  have behind : source.toList = (before ++ middle) ++ after := by rw [whole, List.append_assoc]
  have stop := isValid_byteLength behind
  rw [byteLength_append] at stop
  exact ⟨Nat.le_add_right _ _, room, isValid_byteLength whole, stop⟩

/-- The span of a part of a source that is not empty `Fits`. -/
theorem Span.fits_of_cut {source : String} {before middle after : List Char}
    (whole : source.toList = before ++ (middle ++ after)) (visible : middle ≠ []) :
    Span.Fits ⟨byteLength before, byteLength before + byteLength middle⟩ source := by
  have within := Span.isWithin_of_cut whole
  exact ⟨Nat.lt_add_of_pos_right (byteLength_pos visible), within.inside, within.startsBetween,
    within.stopsBetween⟩

/-- A span that `Fits` is within the source. -/
theorem Span.Fits.isWithin {span : Span} {source : String} (fits : span.Fits source) :
    span.IsWithin source :=
  ⟨Nat.le_of_lt fits.nonempty, fits.inside, fits.startsBetween, fits.stopsBetween⟩

/-- The span of a located piece `Fits` the source: no piece is empty, and pieces are cut between
characters. -/
theorem fits_of_mem_locate {source : String} {piece : Located Piece}
    (member : piece ∈ Piece.locate 0 (Scan.pieces source.toList)) : piece.span.Fits source := by
  obtain ⟨before, after, whole, span, among⟩ := exists_cut_of_mem_locate member
  rw [span]
  exact Span.fits_of_cut whole (Scan.text_ne_nil_of_mem_pieces _ among)

/-- The spans of a `scan` are spans of located pieces. -/
theorem mem_spans_scan {source : String} {span : Span} (member : span ∈ (scan source).spans) :
    ∃ piece ∈ Piece.locate 0 (Scan.pieces source.toList), piece.span = span := by
  rcases List.mem_append.mp member with isToken | isFault
  · obtain ⟨token, among, rfl⟩ := List.mem_map.mp isToken
    obtain ⟨text, located⟩ := exists_piece_of_mem_tokens among
    exact ⟨_, located, rfl⟩
  · obtain ⟨text, located⟩ := exists_piece_of_mem_faults isFault
    exact ⟨_, located, rfl⟩

/-- The spans of a `scan` fit. -/
theorem fits_of_mem_spans {source : String} {span : Span} (member : span ∈ (scan source).spans) :
    span.Fits source := by
  obtain ⟨piece, located, rfl⟩ := mem_spans_scan member
  exact fits_of_mem_locate located

/-- The tokens of a `scan` stand one behind the other. -/
theorem pairwise_tokens_scan (source : String) :
    ((scan source).tokens.map Located.span).Pairwise
      fun first second => first.stop ≤ second.start := by
  rw [List.pairwise_map]
  refine List.pairwise_filterMap.mpr
    ((Piece.pairwise_locate (Scan.pieces source.toList) 0).imp ?_)
  intro first second follow one isOne other isOther
  obtain ⟨found, -, rfl⟩ := Option.map_eq_some_iff.mp isOne
  obtain ⟨next, -, rfl⟩ := Option.map_eq_some_iff.mp isOther
  exact follow

/-- The faults of a `scan` stand one behind the other. -/
theorem pairwise_faults_scan (source : String) :
    (scan source).faults.Pairwise fun first second => first.stop ≤ second.start := by
  refine List.pairwise_filterMap.mpr
    ((Piece.pairwise_locate (Scan.pieces source.toList) 0).imp ?_)
  intro first second follow one isOne other isOther
  rw [Located.fault?, Option.ite_none_right_eq_some] at isOne isOther
  rw [← Option.some.inj isOne.2, ← Option.some.inj isOther.2]
  exact follow

/-- No two spans of a `scan` share a byte: they are `Span.Disjoint`. -/
theorem pairwise_spans_scan (source : String) :
    (scan source).spans.Pairwise Span.Disjoint := by
  refine List.pairwise_append.mpr ⟨?_, ?_, ?_⟩
  · exact (pairwise_tokens_scan source).imp .inl
  · exact (pairwise_faults_scan source).imp .inl
  · intro span isToken fault isFault
    obtain ⟨token, among, rfl⟩ := List.mem_map.mp isToken
    exact disjoint_scan among isFault

/-! ## What is left over -/

/-- The bytes of the characters between tokens, one for each that `isBlank` knows. -/
def blankBytes : List UInt8 :=
  [0x20, 0x09, 0x0d, 0x0a, 0x0c]

/-- The bytes of blanks, `IsBlanks`, are among the `blankBytes`. -/
theorem mem_blankBytes {text : List Char} (blanks : IsBlanks text) {byte : UInt8}
    (member : byte ∈ utf8Bytes text) : byte ∈ blankBytes := by
  have encoded : utf8Bytes [' ', '\t', '\r', '\n', '\x0c'] = blankBytes := by decide +kernel
  obtain ⟨c, among, inside⟩ := List.mem_flatMap.mp member
  rw [← encoded]
  exact List.mem_flatMap.mpr ⟨c, Scan.isBlank_iff.mp (blanks c among), inside⟩

/-- A byte that only blanks cover is one of a blank, by induction on the pieces and the `offset`. -/
theorem Piece.mem_blankBytes_of_free {parts : List Piece} (sound : ∀ part ∈ parts, part.IsSound)
    (offset : Nat) {i : Nat} {byte : UInt8}
    (read : (utf8Bytes (parts.flatMap text))[i]? = some byte)
    (free : ∀ piece ∈ locate offset parts, piece.span.Covers (offset + i) →
      ∃ own, piece.value = .blank own) : byte ∈ blankBytes := by
  induction parts generalizing offset i with
  | nil => cases read
  | cons part rest ih =>
      obtain ⟨own, others⟩ := List.forall_mem_cons.mp sound
      rw [List.flatMap_cons, utf8Bytes_append, List.getElem?_append, length_utf8Bytes] at read
      by_cases first : i < byteLength part.text
      · -- The byte belongs to the first piece, which covers it and so is a run of blanks.
        rw [if_pos first] at read
        obtain ⟨blanks, same⟩ := free ⟨part, ⟨offset, offset + byteLength part.text⟩⟩
          List.mem_cons_self ⟨Nat.le_add_right offset i, Nat.add_lt_add_left first offset⟩
        have same : part = .blank blanks := same
        subst same
        exact mem_blankBytes own (List.mem_of_getElem? read)
      · rw [if_neg first] at read
        refine ih others (offset + byteLength part.text) read fun piece later covers => ?_
        have place : offset + byteLength part.text + (i - byteLength part.text) = offset + i := by
          omega
        rw [place] at covers
        exact free piece (List.mem_cons_of_mem _ later) covers

/-- A byte of the source that no token and no fault `Covers` is one of a blank. -/
theorem mem_blankBytes_of_uncovered {source : String} {i : Nat} {byte : UInt8}
    (read : source.toByteArray.data[i]? = some byte)
    (uncovered : ∀ span ∈ (scan source).spans, ¬span.Covers i) : byte ∈ blankBytes := by
  rw [data_toByteArray, List.getElem?_toArray, ← Scan.flatMap_text_pieces source.toList] at read
  refine Piece.mem_blankBytes_of_free (Scan.isSound_pieces source.toList) 0 read ?_
  intro piece member covers
  rw [Nat.zero_add] at covers
  obtain ⟨part, span⟩ := piece
  cases part with
  | blank own => exact ⟨own, rfl⟩
  | token found text =>
      have among : (⟨found, span⟩ : Located Token) ∈ (scan source).tokens :=
        List.mem_filterMap.mpr ⟨_, member, rfl⟩
      exact absurd covers (uncovered span (List.mem_append_left _ (List.mem_map_of_mem among)))
  | fault text =>
      have among : span ∈ (scan source).faults := List.mem_filterMap.mpr ⟨_, member, rfl⟩
      exact absurd covers (uncovered span (List.mem_append_right _ among))

/-! ## Tokens on their own -/

/-- What the span of a token covers stands for the token: its `Span.slice` is a `Token.Lexeme`. -/
theorem lexeme_of_mem_scan {source : String} {token : Located Token}
    (member : token ∈ (scan source).tokens) :
    token.value.Lexeme (token.span.slice source.toList) := by
  obtain ⟨text, located⟩ := exists_piece_of_mem_tokens member
  obtain ⟨before, after, whole, span, among⟩ := exists_cut_of_mem_locate located
  have span : token.span = ⟨byteLength before, byteLength before + byteLength text⟩ := span
  rw [span, whole]
  show token.value.Lexeme (Span.slice _ (before ++ (text ++ after)))
  rw [Span.slice_append]
  exact Scan.isSound_pieces source.toList _ among

/-- A text that stands for a token, `Token.Lexeme`, is scanned as that token and nothing else. -/
theorem scan_lexeme {token : Token} {text : List Char} (lexeme : token.Lexeme text) :
    scan (String.ofList text) = ⟨[⟨token, ⟨0, byteLength text⟩⟩], []⟩ := by
  rw [scan, String.toList_ofList, Scan.pieces_lexeme lexeme]
  show Scan.mk [⟨token, ⟨0, 0 + byteLength text⟩⟩] [] = _
  rw [Nat.zero_add]

/-- Scanning neither loses nor invents text: the spans of tokens and faults cover whole characters
of the source, each at least one (`Span.Fits`), and no two of them share a byte (`Span.Disjoint`);
tokens come in the order of their spans, and so do faults; every byte outside of them is one of
`blankBytes`. What the span of a token covers is scanned, alone, as that token. -/
theorem scanning_accounts_for_source (source : String) :
    (∀ span ∈ (scan source).spans, span.Fits source) ∧
    (scan source).spans.Pairwise Span.Disjoint ∧
    ((scan source).tokens.map Located.span).Pairwise
      (fun first second => first.stop ≤ second.start) ∧
    (scan source).faults.Pairwise (fun first second => first.stop ≤ second.start) ∧
    (∀ i byte, source.toByteArray.data[i]? = some byte →
      (∀ span ∈ (scan source).spans, ¬span.Covers i) → byte ∈ blankBytes) ∧
    ∀ token ∈ (scan source).tokens,
      scan (String.ofList (token.span.slice source.toList)) =
        ⟨[⟨token.value, ⟨0, byteLength (token.span.slice source.toList)⟩⟩], []⟩ := by
  refine ⟨fun span member => fits_of_mem_spans member, pairwise_spans_scan source,
    pairwise_tokens_scan source, pairwise_faults_scan source, fun i byte read uncovered => ?_,
    fun token member => ?_⟩
  · exact mem_blankBytes_of_uncovered read uncovered
  · exact scan_lexeme (lexeme_of_mem_scan member)

end CypherQuery
