import CypherQuery.Proofs.PatternText.Completeness
import CypherQuery.Proofs.PatternText.Derived
import CypherQuery.Proofs.Render.Quotation

/-! # From patterns to text and back

A pattern whose names are not empty and whose property values are readable (`IsReadable`) has a
text, and that text is parsed as the same pattern: `parsing_rendered_pattern`. That there is a text
needs less of the values, `IsPlain`, and that no call is in it only that they are `IsConstant`. -/

namespace CypherQuery

/-! ## Patterns with a text -/

/-- None of the mentioned names is empty; otherwise `nameText` would fail. -/
def Named (mentions : List Mention) : Prop :=
  ∀ mention ∈ mentions, mention.text ≠ ""

/-- Names that are all `Named` are not empty. -/
theorem Named.of_map {names : List String} (named : Named (names.map .name)) :
    ∀ own ∈ names, own ≠ "" :=
  fun own member => named (.name own) (List.mem_map_of_mem member)

section Printing

variable (config : RenderConfig)

/-- A plain value, `IsPlain`, has a text; if it is a parameter, its name must not be empty. -/
theorem exists_value {value : Expression} (named : Named (value.events.flatMap Event.names))
    (plain : value.IsPlain) : ∃ text, Print.expression config value = .ok text := by
  cases value with
  | literal value =>
      -- A number has a text if it is finite, and moderate ones are.
      exact exists_literalText fun x same => by
        cases same
        exact Binary64.IsModerate.isFinite plain
  | parameter own => exact exists_parameterText (named (.parameter own) List.mem_cons_self)
  | _ => cases plain

/-- Items with texts have a text together, by `Print.separated`. -/
theorem exists_separated {α : Type} {print : α → Rendered} {items : List α}
    (separator : List Char) (each : ∀ item ∈ items, ∃ text, print item = .ok text) :
    ∃ text, Print.separated separator print items = .ok text := by
  induction items with
  | nil => exact ⟨[], rfl⟩
  | cons item rest ih =>
      obtain ⟨⟨first, firstWritten⟩, others⟩ := List.forall_mem_cons.mp each
      -- The separator stands only in front of a further item.
      cases rest with
      | nil => exact ⟨first, firstWritten⟩
      | cons next rest =>
          obtain ⟨more, moreWritten⟩ := ih others
          refine ⟨first ++ (separator ++ more), ?_⟩
          rw [Print.separated, firstWritten, moreWritten]
          rfl

/-- Names that are not empty have a text behind their marks, by `Print.marked`. -/
theorem exists_marked (context : NameContext) {names : List String}
    (named : ∀ own ∈ names, own ≠ "") (first next : Char) :
    ∃ text, Print.marked config context first next names = .ok text := by
  induction names generalizing first with
  | nil => exact ⟨[], rfl⟩
  | cons own rest ih =>
      obtain ⟨nonempty, others⟩ := List.forall_mem_cons.mp named
      obtain ⟨text, written⟩ := exists_nameText config context nonempty
      obtain ⟨more, moreWritten⟩ := ih others next
      refine ⟨first :: (text ++ more), ?_⟩
      rw [Print.marked, written, moreWritten]
      rfl

/-- An entry with a key and a value that `IsPlain` has a text. -/
theorem exists_entry {e : PropertyEntry} (named : Named (e.events.flatMap Event.names))
    (plain : e.value.IsPlain) : ∃ text, Print.entry config e = .ok text := by
  rw [PropertyEntry.events, Part.names_around] at named
  have nonempty : e.key ≠ "" := named (.name e.key) (List.mem_append_left _ List.mem_cons_self)
  obtain ⟨key, keyWritten⟩ := exists_nameText config .property nonempty
  have inner := (List.forall_mem_append.mp (List.forall_mem_append.mp named).2).1
  obtain ⟨value, valueWritten⟩ := exists_value config inner plain
  refine ⟨key ++ ([':', ' '] ++ value), ?_⟩
  rw [Print.entry, keyWritten, valueWritten]
  rfl

/-- A property map with keys and with values that are all `IsPlain` has a text, by
`Print.properties`. -/
theorem exists_properties {map : PropertyMap} (follows : Bool)
    (named : Named (map.events.flatMap Event.names))
    (plain : ∀ value ∈ map.values, value.IsPlain) :
    ∃ text, Print.properties config follows map = .ok text := by
  rw [PropertyMap.events, Part.names_around] at named
  have inner := (List.forall_mem_append.mp (List.forall_mem_append.mp named).2).1
  rw [List.flatMap_assoc] at inner
  have each : ∀ e ∈ map.entries, ∃ text, Print.entry config e = .ok text := fun e member =>
    exists_entry config (List.forall_mem_flatMap.mp inner e member)
      (plain e.value (List.mem_map_of_mem member))
  obtain ⟨list, listWritten⟩ := exists_separated commaText each
  refine ⟨(if follows then [] else [' ']) ++ '\x7b' :: (list ++ ['\x7d']), ?_⟩
  rw [Print.properties, listWritten]
  rfl

/-- A property map that may be missing has a text, by `Print.optional`. -/
theorem exists_optionalProperties {map : Option PropertyMap} (follows : Bool)
    (named : Named ((eventsOfPart PropertyMap.events map).flatMap Event.names))
    (plain : ∀ value ∈ map.elim [] PropertyMap.values, value.IsPlain) :
    ∃ text, Print.optional (Print.properties config follows) map = .ok text := by
  cases map with
  | none => exact ⟨[], rfl⟩
  | some map => exact exists_properties config follows named plain

/-- A name that may be missing has a text, by `nameText`. -/
theorem exists_optionalName (context : NameContext) {own : Option String}
    (named : Named (own.toList.map .name)) :
    ∃ text, Print.optional (nameText config context) own = .ok text := by
  cases own with
  | none => exact ⟨[], rfl⟩
  | some own => exact exists_nameText config context (named.of_map own List.mem_cons_self)

/-- A node with names and plain values has a text, by `Print.node`. -/
theorem exists_node {n : Node} (named : Named (n.events.flatMap Event.names))
    (plain : ∀ value ∈ n.values, value.IsPlain) :
    ∃ text, Print.node config n = .ok text := by
  rw [Node.events, Part.names_around, Part.namesBefore] at named
  obtain ⟨before, inside⟩ := List.forall_mem_append.mp named
  obtain ⟨own, labels⟩ := List.forall_mem_append.mp before
  obtain ⟨first, firstWritten⟩ := exists_optionalName config .node own
  obtain ⟨second, secondWritten⟩ :=
    exists_marked config .label (Named.of_map labels) ':' ':'
  obtain ⟨third, thirdWritten⟩ := exists_optionalProperties config
    (n.name.isNone && n.labels.isEmpty) (List.forall_mem_append.mp inside).1 plain
  refine ⟨'(' :: (first ++ (second ++ (third ++ [')']))), ?_⟩
  rw [Print.node, firstWritten, secondWritten, thirdWritten]
  rfl

/-- A relationship with names and plain values has a text, by `Print.relationship`. -/
theorem exists_relationship {r : Relationship} (named : Named (r.events.flatMap Event.names))
    (plain : ∀ value ∈ r.values, value.IsPlain) :
    ∃ text, Print.relationship config r = .ok text := by
  rw [Relationship.events, Part.names_around, Part.namesBefore] at named
  obtain ⟨before, inside⟩ := List.forall_mem_append.mp named
  obtain ⟨own, types⟩ := List.forall_mem_append.mp before
  obtain ⟨first, firstWritten⟩ := exists_optionalName config .relationship own
  obtain ⟨second, secondWritten⟩ :=
    exists_marked config .relationshipType (Named.of_map types) ':' '|'
  obtain ⟨third, thirdWritten⟩ := exists_optionalProperties config
    (r.name.isNone && r.types.isEmpty) (List.forall_mem_append.mp inside).1 plain
  -- Details are written only if something is asked for, but they could be in any case.
  have asked : ∃ text, (if r.isBare then .ok [] else Print.details config r : Rendered)
      = .ok text := by
    split
    · exact ⟨[], rfl⟩
    · refine ⟨'[' :: (first ++ (second ++ (third ++ [']']))), ?_⟩
      rw [Print.details, firstWritten, secondWritten, thirdWritten]
      rfl
  obtain ⟨text, written⟩ := asked
  exact ⟨_, (relationship_eq_ok config).mpr ⟨text, written, rfl⟩⟩

/-- Steps with names and plain values have a text, by `Print.hops`. -/
theorem exists_hops {steps : List Hop}
    (named : Named ((steps.flatMap Hop.events).flatMap Event.names))
    (plain : ∀ value ∈ steps.flatMap Hop.values, value.IsPlain) :
    ∃ text, Print.hops config steps = .ok text := by
  induction steps with
  | nil => exact ⟨[], rfl⟩
  | cons hop rest ih =>
      -- Names and values are split in the same order: relationship, node, further steps.
      rw [List.flatMap_cons, List.forall_mem_append] at plain
      rw [List.flatMap_cons, List.flatMap_append, Hop.events, List.flatMap_append] at named
      obtain ⟨hopNamed, restNamed⟩ := List.forall_mem_append.mp named
      obtain ⟨relationNamed, nodeNamed⟩ := List.forall_mem_append.mp hopNamed
      obtain ⟨relationValues, nodeValues⟩ := List.forall_mem_append.mp plain.1
      obtain ⟨relation, relationWritten⟩ := exists_relationship config relationNamed relationValues
      obtain ⟨target, targetWritten⟩ := exists_node config nodeNamed nodeValues
      obtain ⟨others, othersWritten⟩ := ih restNamed plain.2
      refine ⟨relation ++ (target ++ others), ?_⟩
      rw [Print.hops, relationWritten, targetWritten, othersWritten]
      rfl

/-- An element with names and plain values has a text, by `Print.element`. -/
theorem exists_element {e : PatternElement} (named : Named (e.events.flatMap Event.names))
    (plain : ∀ value ∈ e.values, value.IsPlain) :
    ∃ text, Print.element config e = .ok text := by
  cases e with
  | node single =>
      rw [PatternElement.events, Part.names_around] at named
      have inner := (List.forall_mem_append.mp (List.forall_mem_append.mp named).2).1
      exact exists_node config inner plain
  | chain path =>
      rw [PatternElement.events, Part.names_around, Chain.events, Part.names_around,
        List.flatMap_append] at named
      have chain := (List.forall_mem_append.mp (List.forall_mem_append.mp named).2).1
      have inner := (List.forall_mem_append.mp (List.forall_mem_append.mp chain).2).1
      obtain ⟨startNamed, stepsNamed⟩ := List.forall_mem_append.mp inner
      obtain ⟨startValues, stepValues⟩ := List.forall_mem_append.mp plain
      obtain ⟨start, startWritten⟩ := exists_node config startNamed startValues
      obtain ⟨steps, stepsWritten⟩ := exists_hops config stepsNamed stepValues
      refine ⟨start ++ steps, ?_⟩
      rw [Print.element, startWritten, stepsWritten]
      rfl

/-- A pattern with elements, names and values that are all `IsPlain` has a text. -/
theorem exists_plainPattern {p : Pattern} (nonempty : p.elements ≠ []) (named : Named p.names)
    (plain : ∀ value ∈ p.values, value.IsPlain) :
    ∃ text, Print.pattern config p = .ok text := by
  rw [Pattern.names, Pattern.events, Part.names_around, List.flatMap_assoc] at named
  have inner := (List.forall_mem_append.mp (List.forall_mem_append.mp named).2).1
  rw [Print.pattern, if_neg fun empty => nonempty (List.isEmpty_iff.mp empty)]
  exact exists_separated commaText fun e member =>
    exists_element config (List.forall_mem_flatMap.mp inner e member)
      (List.forall_mem_flatMap.mp plain e member)

/-- A pattern with elements, names and values that are all `IsReadable` has a text. -/
theorem exists_pattern {p : Pattern} (nonempty : p.elements ≠ []) (named : Named p.names)
    (readable : ∀ value ∈ p.values, value.IsReadable) :
    ∃ text, Print.pattern config p = .ok text :=
  exists_plainPattern config nonempty named fun value member => (readable value member).isPlain

end Printing

/-! ## Values without calls -/

/-- Whether an expression is a literal or a parameter, so that it calls nothing. -/
def Expression.IsConstant : Expression → Prop
  | .literal _ | .parameter _ => True
  | _ => False

/-- A value that `IsPlain` is a literal or a parameter. -/
theorem Expression.IsPlain.isConstant {value : Expression} (plain : value.IsPlain) :
    value.IsConstant := by
  cases value with
  | literal => trivial
  | parameter => trivial
  | _ => cases plain

section Words

/-- A property map of constants calls nothing: each part `HasWordFunction`. -/
theorem words_properties {map : Option PropertyMap}
    (constant : ∀ value ∈ map.elim [] PropertyMap.values, value.IsConstant) :
    ∀ part ∈ map.elim [] PropertyMap.preorder, part.HasWordFunction := by
  cases map with
  | none => exact List.forall_mem_nil _
  | some map =>
      -- Constants are parts of their own and have no parts inside.
      refine List.forall_mem_flatMap.mpr fun e member => ?_
      have value := constant e.value (List.mem_map_of_mem member)
      cases same : e.value with
      | literal => exact List.forall_mem_singleton.mpr trivial
      | parameter => exact List.forall_mem_singleton.mpr trivial
      | _ => rw [same] at value; cases value

/-- A node with constants calls nothing: each part `HasWordFunction`. -/
theorem words_node {n : Node} (constant : ∀ value ∈ n.values, value.IsConstant) :
    ∀ part ∈ n.preorder, part.HasWordFunction :=
  List.forall_mem_cons.mpr ⟨trivial, words_properties constant⟩

/-- A step with constants calls nothing: each part `HasWordFunction`. -/
theorem words_hop {hop : Hop} (constant : ∀ value ∈ hop.values, value.IsConstant) :
    ∀ part ∈ hop.preorder, part.HasWordFunction := by
  obtain ⟨relation, target⟩ := List.forall_mem_append.mp constant
  exact List.forall_mem_append.mpr
    ⟨List.forall_mem_cons.mpr ⟨trivial, words_properties relation⟩, words_node target⟩

/-- An element with constants calls nothing: each part `HasWordFunction`. -/
theorem words_element {e : PatternElement} (constant : ∀ value ∈ e.values, value.IsConstant) :
    ∀ part ∈ e.preorder, part.HasWordFunction := by
  cases e with
  | node single => exact words_node constant
  | chain path =>
      obtain ⟨start, steps⟩ := List.forall_mem_append.mp constant
      exact List.forall_mem_append.mpr ⟨words_node start, List.forall_mem_flatMap.mpr
        fun hop member => words_hop (List.forall_mem_flatMap.mp steps hop member)⟩

/-- A pattern whose values are constants calls nothing: `HasWordFunction` holds of all its parts. -/
theorem words_pattern {p : Pattern} (constant : ∀ value ∈ p.values, value.IsConstant) :
    ∀ part ∈ p.preorder, part.HasWordFunction :=
  List.forall_mem_cons.mpr ⟨trivial, List.forall_mem_flatMap.mpr fun e member =>
    words_element (List.forall_mem_flatMap.mp constant e member)⟩

end Words

/-! ## Reading a text back -/

/-- The text of a pattern whose values are constants is cut into its pieces, `Spelling.pattern`. -/
theorem pieces_printed {config : RenderConfig} {p : Pattern} {text : List Char}
    (constant : ∀ value ∈ p.values, value.IsConstant)
    (printed : Print.pattern config p = .ok text) :
    Scan.pieces (String.ofList text).toList = Spelling.pattern config p := by
  rw [String.toList_ofList]
  exact (spells_pattern config p (words_pattern constant) text printed).splits.pieces_eq trivial

/-- A text without faults whose tokens derive a pattern, `Grammar.Pattern`, is parsed as the
pattern. -/
theorem parse_of_derived {source : String} {tokens : List Token} {p : Pattern}
    (clean : (scan source).isClean = true)
    (scanned : (scan source).tokens.map Located.value = tokens)
    (derived : Grammar.Pattern tokens p) : Pattern.parse source = .ok p := by
  refine Pattern.parse_eq_ok_iff.mpr ⟨clean, ?_, ?_⟩
  · intro none
    rw [none] at scanned
    exact derived.ne_nil scanned.symm
  · rw [scanned]
    exact derived

/-- The text of a pattern whose values are all `IsReadable` is parsed as the pattern. -/
theorem parse_printed {config : RenderConfig} {p : Pattern} {text : List Char}
    (nonempty : p.elements ≠ []) (steps : ∀ e ∈ p.elements, e.HasSteps)
    (readable : ∀ value ∈ p.values, value.IsReadable)
    (printed : Print.pattern config p = .ok text) : Pattern.parse (String.ofList text) = .ok p := by
  have constant : ∀ value ∈ p.values, value.IsConstant :=
    fun value member => (readable value member).isPlain.isConstant
  have cut := pieces_printed constant printed
  have whole := derives_pattern config nonempty steps readable
  have tokens := tokens_scan (String.ofList text)
  rw [cut] at tokens
  refine parse_of_derived ?_ tokens whole.derived
  rw [isClean_scan, cut]
  exact whole.clean

/-- A pattern has a text, and that text is parsed as the pattern, if it has elements, its paths have
steps (`HasSteps`), none of its names is empty and its property values are `IsReadable`. -/
theorem parsing_rendered_pattern (config : RenderConfig) (p : Pattern)
    (nonempty : p.elements ≠ []) (steps : ∀ e ∈ p.elements, e.HasSteps)
    (named : ∀ mention ∈ p.names, mention.text ≠ "")
    (readable : ∀ value ∈ p.values, value.IsReadable) :
    ∃ text, Renderer.renderPattern ⟨config⟩ p = .ok text ∧ Pattern.parse text = .ok p := by
  obtain ⟨text, printed⟩ := exists_pattern config nonempty named readable
  exact ⟨String.ofList text, Renderer.renderPattern_eq_ok.mpr ⟨text, printed, rfl⟩,
    parse_printed nonempty steps readable printed⟩

/-- A pattern whose names need quotation, whose arrows touch the parentheses, and whose numbers are
the outermost ones that need no exponent. -/
def hostilePattern : Pattern :=
  ⟨[.chain
      ⟨⟨some "\x60", ["match", "A\x60\x60B"], some ⟨[]⟩⟩,
        [⟨⟨none, [], none, .incoming⟩, ⟨none, [], none⟩⟩,
          ⟨⟨some "true", ["\n", "\x60"],
              some ⟨[⟨"it's", .literal (.string "\x5c'\x7d]->(\n\x60")⟩]⟩, .outgoing⟩,
            ⟨none, ["é"], none⟩⟩,
          ⟨⟨none, [], some ⟨[]⟩, .undirected⟩, ⟨some "m", [], none⟩⟩]⟩,
    .node
      ⟨none, [], some
        ⟨[⟨"a", .literal (.float ⟨true, 0#63⟩)⟩,
          ⟨"b", .literal (.float ⟨true, 0x3F1A36E2EB1C432D#63⟩)⟩,
          ⟨"c", .literal (.float ⟨false, 0x4341C37937E07FFF#63⟩)⟩,
          ⟨"d", .literal (.integer (-9223372036854775807))⟩,
          ⟨"e", .literal (.boolean false)⟩,
          ⟨"e", .literal .null⟩,
          ⟨"f", .parameter "null"⟩]⟩⟩]⟩

/-- The pattern `hostilePattern` has a text, and that text is parsed as the pattern. -/
theorem parsing_rendered_hostilePattern :
    hostilePattern.elements ≠ [] ∧ (∀ e ∈ hostilePattern.elements, e.HasSteps) ∧
    (∀ mention ∈ hostilePattern.names, mention.text ≠ "") ∧
    (∀ value ∈ hostilePattern.values, value.IsReadable) ∧
    ∃ text, Renderer.renderPattern ⟨.plain⟩ hostilePattern = .ok text ∧
      Pattern.parse text = .ok hostilePattern := by
  have nonempty : hostilePattern.elements ≠ [] := List.cons_ne_nil _ _
  have steps : ∀ e ∈ hostilePattern.elements, e.HasSteps := by decide
  have named : ∀ mention ∈ hostilePattern.names, mention.text ≠ "" := by decide
  have readable : ∀ value ∈ hostilePattern.values, value.IsReadable := by decide +kernel
  exact ⟨nonempty, steps, named, readable,
    parsing_rendered_pattern .plain hostilePattern nonempty steps named readable⟩

end CypherQuery
