import CypherQuery.Proofs.PatternText.Completeness
import CypherQuery.Proofs.Token.Locating

/-! # Readers reject at once

A reader looks no further than at the first token that it leaves, and it rejects tokens at the
first one that cannot go on: those before it can be completed to tokens that derive something. Both
are the statement `Prompt`, which is proved once for reading one part behind another
(`Prompt.bind`), and then for the readers one by one. -/

namespace CypherQuery

/-! ## Tokens that can be completed -/

/-- Tokens that become, with further ones that can be scanned (`Token.IsScanned`), tokens that
derive something. -/
def Completable {α : Type} (Derives : List Token → α → Prop) (used : List Token) : Prop :=
  ∃ more found, (∀ token ∈ more, token.IsScanned) ∧ Derives (used ++ more) found

namespace Completable

variable {α : Type} {Derives : List Token → α → Prop} {used : List Token}

/-- Tokens are `Completable` if they are with further ones behind them. -/
theorem of_append (more : List Token) (scanned : ∀ token ∈ more, token.IsScanned)
    (longer : Completable Derives (used ++ more)) : Completable Derives used := by
  obtain ⟨others, found, othersScanned, derived⟩ := longer
  refine ⟨more ++ others, found, List.forall_mem_append.mpr ⟨scanned, othersScanned⟩, ?_⟩
  rwa [← List.append_assoc]

/-- Tokens that derive something are `Completable` with no further ones. -/
theorem of_derived {found : α} (derived : Derives used found) : Completable Derives used :=
  ⟨[], found, List.forall_mem_nil _, (List.append_nil used).symm ▸ derived⟩

/-- What completes tokens behind others completes all of them: `Completable` under a shifted
relation. -/
theorem behind (before : List Token)
    (completable : Completable (fun more found => Derives (before ++ more) found) used) :
    Completable Derives (before ++ used) := by
  obtain ⟨more, found, scanned, derived⟩ := completable
  exact ⟨more, found, scanned, (List.append_assoc before used more).symm ▸ derived⟩

end Completable

/-! ## What is to blame -/

/-- Whether a fault is that one token stands in the place of another: every fault of a reader but
`bothDirections`. -/
def PatternFault.IsAtToken : PatternFault → Prop
  | .outOfRange _ | .unexpectedInput _ | .empty | .bothDirections => False
  | .expectedToken _ _ | .expectedName _ _ | .expectedValue _ | .expectedNumber _
  | .expectedClosing _ | .trailing _ | .bareWord _ => True

/-- One token alone is not two arrows, `bothDirections`. -/
theorem PatternFault.IsAtToken.ne_bothDirections {fault : PatternFault}
    (atToken : fault.IsAtToken) : fault ≠ .bothDirections := by
  rintro rfl
  exact atToken

/-- What a rejection blames if the tokens from `rest` on cannot go on with those before it: the
first of them, or everything from the first arrow of a relationship up to the second one. -/
inductive Rejection.Blames (tokens rest : List Token) : Rejection → Prop where
  /-- The token that cannot go on. -/
  | next {fault : PatternFault} (atToken : fault.IsAtToken) :
      Blames tokens rest ⟨fault, rest, rest⟩
  /-- A relationship with an arrow at both ends, of which the second one cannot go on. -/
  | arrows {before inside behind : List Token} {details : Direction → Relationship}
      (split : tokens = before ++ .leftArrow :: (inside ++ rest))
      (areDetails : Grammar.Details inside details) (second : rest = .rightArrow :: behind) :
      Blames tokens rest ⟨.bothDirections, .leftArrow :: (inside ++ rest), rest⟩

/-- What a rejection `Blames` does not change behind other tokens. -/
theorem Rejection.Blames.behind {tokens rest : List Token} {rejection : Rejection}
    (blames : rejection.Blames tokens rest) (before : List Token) :
    rejection.Blames (before ++ tokens) rest := by
  cases blames with
  | next atToken => exact .next atToken
  | @arrows earlier inside behind details split areDetails second =>
      exact .arrows (by rw [split, List.append_assoc]) areDetails second

namespace Reading

variable {α β : Type}

/-! ## Readers that reject at once -/

/-- A reader rejects some tokens at once, or finds something in front of them, in either case
without a look behind the first token that it leaves: what it does is the same for all `other`
tokens that start like the `rest`. -/
inductive Prompt (Derives : List Token → α → Prop) (read : List Token → Reading (α × List Token))
    (tokens : List Token) : Prop where
  /-- The tokens in front derive what is found. -/
  | finds {used rest : List Token} {found : α} (split : tokens = used ++ rest)
      (derived : Derives used found)
      (reads : ∀ other, other.head? = rest.head? → read (used ++ other) = .ok (found, other))
  /-- The tokens in front can be completed, but not by the first one behind them. -/
  | blames {used rest : List Token} (split : tokens = used ++ rest)
      (completable : Completable Derives used)
      (rejects : ∀ other, other.head? = rest.head? → ∃ rejection,
        read (used ++ other) = .error rejection ∧ rejection.Blames (used ++ other) other)

/-- What holds of all tokens with a certain first one holds of those that start alike, `head?`. -/
theorem forall_alike_cons {holds : List Token → Prop} {token : Token}
    (each : ∀ rest, holds (token :: rest)) (other : List Token)
    (alike : other.head? = some token) : holds other := by
  obtain ⟨rest, rfl⟩ := List.head?_eq_some_iff.mp alike
  exact each rest

/-- What `holds` of no tokens holds of those that start like none. -/
theorem forall_alike_nil {holds : List Token → Prop} (nil : holds []) (other : List Token)
    (alike : other.head? = none) : holds other := by
  rwa [List.head?_eq_none_iff.mp alike]

/-- Lists start alike if they do behind the same tokens `used` in front. -/
theorem head?_append_alike {other rest : List Token} (alike : other.head? = rest.head?)
    (used : List Token) : (used ++ other).head? = (used ++ rest).head? := by
  rw [List.head?_append, List.head?_append, alike]

namespace Prompt

variable {Derives : List Token → α → Prop} {read next : List Token → Reading (α × List Token)}
  {tokens rest : List Token}

/-- A reader that takes nothing is `Prompt`. -/
theorem stop {found : α} (derived : Derives [] found)
    (reads : ∀ other, other.head? = tokens.head? → read other = .ok (found, other)) :
    Prompt Derives read tokens :=
  .finds (List.nil_append tokens).symm derived reads

/-- A reader that rejects the first token by `reject` is `Prompt`, if no token at all is
`Completable`. -/
theorem fail (fault : Option Token → PatternFault)
    (atToken : ∀ found, (fault found).IsAtToken) (completable : Completable Derives [])
    (rejects : ∀ other, other.head? = tokens.head? → read other = reject fault other) :
    Prompt Derives read tokens :=
  .blames (List.nil_append tokens).symm completable fun tail alike =>
    ⟨_, rejects tail alike, .next (atToken tail.head?)⟩

/-- Readers that agree on all tokens that start alike are `Prompt` together. -/
theorem of_alike (prompt : Prompt Derives next tokens)
    (same : ∀ other, other.head? = tokens.head? → read other = next other) :
    Prompt Derives read tokens := by
  rcases prompt with ⟨rfl, derived, reads⟩ | ⟨rfl, completable, rejects⟩
  · refine .finds rfl derived fun other alike => ?_
    rw [same _ (head?_append_alike alike _), reads other alike]
  · refine .blames rfl completable fun other alike => ?_
    rw [same _ (head?_append_alike alike _)]
    exact rejects other alike

/-- A reader that has a first token behind it is `Prompt` as it goes on. -/
theorem cons {token : Token}
    (later : Prompt (fun used found => Derives (token :: used) found)
      (fun other => read (token :: other)) rest) : Prompt Derives read (token :: rest) := by
  rcases later with ⟨rfl, derived, reads⟩ | ⟨rfl, completable, rejects⟩
  · exact .finds rfl derived reads
  · refine .blames rfl (completable.behind [token]) fun other alike => ?_
    obtain ⟨rejection, rejected, blames⟩ := rejects other alike
    exact ⟨rejection, rejected, blames.behind [token]⟩

end Prompt

section Steps

variable {Derives : List Token → β → Prop} {tokens : List Token}

/-- One part behind another is `Prompt`: what the first part uses can be completed, and behind it
the second part is read. -/
theorem Prompt.bind {First : List Token → α → Prop} {read : List Token → Reading (α × List Token)}
    {next : α × List Token → Reading (β × List Token)} (first : Prompt First read tokens)
    (completes : ∀ used found, First used found → Completable Derives used)
    (later : ∀ used rest found, read tokens = .ok (found, rest) → First used found →
      Prompt (fun more whole => Derives (used ++ more) whole) (fun rest => next (found, rest))
        rest) :
    Prompt Derives (fun tokens => read tokens >>= next) tokens := by
  rcases first with @⟨used, rest, found, split, derived, reads⟩ |
    @⟨used, rest, split, ⟨more, found, scanned, derived⟩, rejects⟩
  · have whole : ∀ other, other.head? = rest.head? →
        (read (used ++ other) >>= next) = next (found, other) := by
      intro other alike
      rw [reads other alike]
      rfl
    -- What starts like the second part behind the tokens used makes the first part the same.
    have second := later used rest found (split ▸ reads rest rfl) derived
    rcases second with @⟨others, behind, found, rfl, derived, behindReads⟩ |
      @⟨others, behind, rfl, completable, rejects⟩
    · refine .finds (by rw [split, List.append_assoc]) derived fun other alike => ?_
      rw [List.append_assoc, whole _ (head?_append_alike alike others), behindReads other alike]
    · refine .blames (by rw [split, List.append_assoc]) (completable.behind used) ?_
      intro other alike
      rw [List.append_assoc, whole _ (head?_append_alike alike others)]
      obtain ⟨rejection, rejected, blames⟩ := rejects other alike
      exact ⟨rejection, rejected, blames.behind used⟩
  · refine .blames split ?_ fun other alike => ?_
    · exact (completes _ found derived).of_append more scanned
    · obtain ⟨rejection, rejected, blames⟩ := rejects other alike
      refine ⟨rejection, ?_, blames⟩
      rw [rejected]
      rfl

/-- A last part is `Prompt`: what it uses is all that is used. -/
theorem Prompt.finish {First : List Token → α → Prop}
    {read : List Token → Reading (α × List Token)}
    {next : α × List Token → Reading (β × List Token)} (first : Prompt First read tokens)
    {make : α → β} (finishes : ∀ found rest, next (found, rest) = .ok (make found, rest))
    (derives : ∀ used found, First used found → Derives used (make found)) :
    Prompt Derives (fun tokens => read tokens >>= next) tokens := by
  refine first.bind (fun used found part => .of_derived (derives used found part)) ?_
  intro used rest found _ part
  refine .stop ?_ fun other _ => finishes found other
  rw [List.append_nil]
  exact derives used found part

/-- A certain token, read by `expect`, and what is behind it. -/
theorem Prompt.expect {wanted : Token} {next : List Token → Reading (β × List Token)}
    (scanned : wanted.IsScanned) (completable : Completable Derives [wanted])
    (later : ∀ rest, Prompt (fun more whole => Derives (wanted :: more) whole) next rest) :
    Prompt Derives (fun tokens => expect wanted tokens >>= next) tokens := by
  have nothing : Completable Derives [] :=
    completable.of_append [wanted] (List.forall_mem_singleton.mpr scanned)
  rcases tokens with _ | ⟨token, rest⟩
  · exact .fail (.expectedToken wanted) (fun _ => trivial) nothing (forall_alike_nil rfl)
  · by_cases same : token = wanted
    · subst same
      refine .cons ((later rest).of_alike fun other _ => ?_)
      rw [expect_cons]
      rfl
    · refine .fail (.expectedToken wanted) (fun _ => trivial) nothing
        (forall_alike_cons fun other => ?_)
      rw [Reading.expect, if_neg same]
      rfl

/-- A name, read by `Reading.name`, and what is behind it. -/
theorem Prompt.name {role : NameRole} {next : String × List Token → Reading (β × List Token)}
    (completes : ∀ token own, token.name? = some own → Completable Derives [token])
    (later : ∀ token own rest, tokens = token :: rest → token.name? = some own →
      Prompt (fun more whole => Derives (token :: more) whole) (fun rest => next (own, rest))
        rest) :
    Prompt Derives (fun tokens => name role tokens >>= next) tokens := by
  have nothing : Completable Derives [] :=
    (completes (.identifier "n") "n" rfl).of_append [.identifier "n"]
      (List.forall_mem_singleton.mpr trivial)
  rcases tokens with _ | ⟨token, rest⟩
  · exact .fail (.expectedName role) (fun _ => trivial) nothing (forall_alike_nil rfl)
  · rcases named : token.name? with _ | own
    · refine .fail (.expectedName role) (fun _ => trivial) nothing
        (forall_alike_cons fun other => ?_)
      rw [Reading.name, named]
      rfl
    · refine .cons ((later token own rest rfl named).of_alike fun other _ => ?_)
      rw [name_cons named]
      rfl

/-- A name that may be missing, read by `Reading.optionalName`, and what is behind it. -/
theorem Prompt.optionalName (next : Option String → List Token → Reading (β × List Token))
    (later : ∀ used own rest, Grammar.OptionalName used own →
      Prompt (fun more whole => Derives (used ++ more) whole) (next own) rest) :
    Prompt Derives (fun tokens => next (optionalName tokens).1 (optionalName tokens).2)
      tokens := by
  rcases tokens with _ | ⟨token, rest⟩
  · exact (later [] none [] .absent).of_alike (forall_alike_nil rfl)
  · rcases named : token.name? with _ | own
    · refine (later [] none (token :: rest) .absent).of_alike (forall_alike_cons fun other => ?_)
      rw [Reading.optionalName, named]
    · refine .cons ((later [token] (some own) rest (.present named)).of_alike fun other _ => ?_)
      rw [Reading.optionalName, named]

end Steps

/-! ## Property maps -/

/-- A value is read at once: `value` is `Prompt`. -/
theorem value_prompt (tokens : List Token) : Prompt Grammar.Value value tokens := by
  have zero : ∀ token ∈ [Token.integer 0], token.IsScanned :=
    List.forall_mem_singleton.mpr (by decide : 0 ≤ (0 : Int64).toInt)
  have nothing : Completable Grammar.Value [] := ⟨[.integer 0], _, zero, .integer 0⟩
  have minus : Completable (fun used found => Grammar.Value (.dash :: used) found) [] :=
    ⟨[.integer 0], _, zero, .negativeInteger 0⟩
  rcases tokens with _ | ⟨token, rest⟩
  · exact .fail .expectedValue (fun _ => trivial) nothing (forall_alike_nil rfl)
  cases token
  case parameter own => exact .cons (.stop (.parameter own) fun _ _ => rfl)
  case string text => exact .cons (.stop (.string text) fun _ _ => rfl)
  case integer n => exact .cons (.stop (.integer n) fun _ _ => rfl)
  case float x => exact .cons (.stop (.float x) fun _ _ => rfl)
  case dash =>
    refine .cons ?_
    rcases rest with _ | ⟨second, behind⟩
    · exact .fail .expectedNumber (fun _ => trivial) minus (forall_alike_nil rfl)
    cases second
    case integer n => exact .cons (.stop (.negativeInteger n) fun _ _ => rfl)
    case float x => exact .cons (.stop (.negativeFloat x) fun _ _ => rfl)
    all_goals
      exact .fail .expectedNumber (fun _ => trivial) minus (forall_alike_cons fun _ => rfl)
  case identifier word =>
    rcases known : Literal.ofWord? word with _ | constant
    · refine .fail (fun _ => .bareWord word) (fun _ => trivial) nothing
        (forall_alike_cons fun other => ?_)
      simp [value, known]
    · refine .cons (.stop (.word known) fun other _ => ?_)
      simp [value, known]
  all_goals exact .fail .expectedValue (fun _ => trivial) nothing (forall_alike_cons fun _ => rfl)

/-- An entry is read at once: `entry` is `Prompt`. -/
theorem entry_prompt (tokens : List Token) : Prompt Grammar.Entry entry tokens := by
  have scanned : ∀ token ∈ [Token.colon, .integer 0], token.IsScanned := by
    simp [Token.IsScanned]
  have zero : ∀ token ∈ [Token.integer 0], token.IsScanned :=
    fun token member => scanned token (List.mem_cons_of_mem _ member)
  unfold entry
  refine .name (fun token key named => ?_) fun token key rest _ named => ?_
  · exact ⟨[.colon, .integer 0], _, scanned, .intro named (.integer 0)⟩
  refine .expect trivial ⟨[.integer 0], _, zero, .intro named (.integer 0)⟩ fun rest => ?_
  exact (value_prompt rest).finish (fun _ _ => rfl) fun used found isValue => .intro named isValue

/-- The reader `commaSeparated` reads an item and looks for a comma: its equation without the proof
that it ends. -/
theorem commaSeparated_eq {item : List Token → Reading (α × List Token)}
    {shrinks : ∀ {tokens a rest}, item tokens = .ok (a, rest) → rest.length < tokens.length}
    (tokens : List Token) :
    commaSeparated item shrinks tokens = item tokens >>= fun (first, rest) =>
      match rest with
      | .comma :: rest => commaSeparated item shrinks rest >>= fun (more, rest) =>
          .ok (first :: more, rest)
      | rest => .ok ([first], rest) := by
  rw [commaSeparated]
  split
  · next failed => rw [failed]; rfl
  · next first rest one =>
      rw [one]
      show _ = commaSeparated item shrinks rest >>= fun (more, rest) => .ok (first :: more, rest)
      rcases commaSeparated item shrinks rest with failure | ⟨more, behind⟩
      · rfl
      · rfl
  · next first rest other one =>
      rw [one]
      rcases rest with _ | ⟨token, behind⟩
      · rfl
      · cases token
        case comma => exact absurd rfl (other behind)
        all_goals rfl

/-- Items with commas between them are read at once if each `item` is. -/
theorem commaSeparated_prompt {item : List Token → Reading (α × List Token)}
    {shrinks : ∀ {tokens a rest}, item tokens = .ok (a, rest) → rest.length < tokens.length}
    {Item : List Token → α → Prop} (prompt : ∀ tokens, Prompt Item item tokens)
    (tokens : List Token) :
    Prompt (Grammar.CommaSeparated Item) (commaSeparated item shrinks) tokens := by
  refine .of_alike ?_ fun other _ => commaSeparated_eq other
  refine (prompt tokens).bind (fun used found isItem => .of_derived (.one isItem)) ?_
  intro used rest first read isItem
  have last : Grammar.CommaSeparated Item (used ++ []) [first] :=
    (List.append_nil used).symm ▸ .one isItem
  have shorter : rest.length < tokens.length := shrinks read
  rcases rest with _ | ⟨token, behind⟩
  · exact .stop last (forall_alike_nil rfl)
  by_cases comma : token = .comma
  · subst comma
    refine .cons ?_
    exact (commaSeparated_prompt prompt behind).finish (fun _ _ => rfl)
      fun others items areItems => .more isItem areItems
  · refine .stop last (forall_alike_cons fun other => ?_)
    cases token
    case comma => exact absurd rfl comma
    all_goals rfl
termination_by tokens.length
decreasing_by
  rw [List.length_cons] at shorter
  omega

/-- Behind a brace that is not closed at once the reader `properties` reads entries. -/
theorem properties_leftBrace {tokens : List Token} (full : tokens.head? ≠ some .rightBrace) :
    properties (.leftBrace :: tokens) =
      commaSeparated entry length_of_entry tokens >>= fun (entries, rest) =>
        expect .rightBrace rest >>= fun rest => .ok (some ⟨entries⟩, rest) := by
  unfold properties
  split
  · next same => cases same; exact absurd rfl full
  · next same => cases same; rfl
  · next other => exact absurd rfl (other _)

/-- A property map that may be missing is read at once: `properties` is `Prompt`. -/
theorem properties_prompt (tokens : List Token) : Prompt Grammar.Properties properties tokens := by
  rcases tokens with _ | ⟨token, rest⟩
  · exact .stop .absent (forall_alike_nil rfl)
  by_cases brace : token = .leftBrace
  · subst brace
    by_cases empty : rest.head? = some .rightBrace
    · obtain ⟨behind, rfl⟩ := List.head?_eq_some_iff.mp empty
      exact .cons (.cons (.stop .empty fun _ _ => rfl))
    · -- As no brace closes the map at once, there must be entries.
      refine .cons (.of_alike ?_ fun other alike => properties_leftBrace (alike.symm ▸ empty))
      refine (commaSeparated_prompt entry_prompt rest).bind (fun used found areEntries => ?_) ?_
      · exact ⟨[.rightBrace], _, List.forall_mem_singleton.mpr trivial, .entries areEntries⟩
      intro used rest found _ areEntries
      refine .expect trivial (.of_derived (.entries areEntries)) fun rest => ?_
      exact .stop (.entries areEntries) fun _ _ => rfl
  · refine .stop .absent (forall_alike_cons fun other => ?_)
    exact properties_of_derived .absent fun same => brace (Option.some.inj same)

/-! ## Nodes -/

/-- Behind a colon the reader `labels` reads a name, and further labels. -/
theorem labels_colon (tokens : List Token) :
    labels (.colon :: tokens) = name .label tokens >>= fun (label, rest) =>
      labels rest >>= fun (more, rest) => .ok (label :: more, rest) := by
  rcases tokens with _ | ⟨token, rest⟩
  · rfl
  · rw [labels, name]
    rcases token.name? with _ | label
    · rfl
    · rfl

/-- Labels are read at once: `labels` is `Prompt`, by induction on the number of tokens. -/
theorem labels_prompt (tokens : List Token) : Prompt Grammar.Labels labels tokens := by
  rcases tokens with _ | ⟨token, rest⟩
  · exact .stop .none (forall_alike_nil rfl)
  by_cases colon : token = .colon
  · subst colon
    refine .cons (.of_alike ?_ fun other _ => labels_colon other)
    refine .name (fun token label named => .of_derived (.more named .none)) ?_
    intro token label behind split named
    exact (labels_prompt behind).finish (fun _ _ => rfl)
      fun used found areLabels => .more named areLabels
  · refine .stop .none (forall_alike_cons fun other => ?_)
    exact labels_of_derived .none fun same => colon (Option.some.inj same)
termination_by tokens.length
decreasing_by
  simp only [split, List.length_cons]
  omega

/-- A node from behind its name, or behind where one would be: what `node` does after
`optionalName`. -/
def nodeBehindName (own : Option String) (tokens : List Token) : Reading (Node × List Token) :=
  labels tokens >>= fun (labels, rest) => properties rest >>= fun (map, rest) =>
    expect .rightParen rest >>= fun rest => .ok (⟨own, labels, map⟩, rest)

/-- The reader `node` reads up to a name, and then as `nodeBehindName` does. -/
theorem node_eq (tokens : List Token) :
    node tokens = expect .leftParen tokens >>= fun rest =>
      nodeBehindName (optionalName rest).1 (optionalName rest).2 :=
  rfl

/-- A node is read at once: `node` is `Prompt`. -/
theorem node_prompt (tokens : List Token) : Prompt Grammar.Node node tokens := by
  have closing : ∀ token ∈ [Token.rightParen], token.IsScanned :=
    List.forall_mem_singleton.mpr trivial
  refine .of_alike ?_ fun other _ => node_eq other
  refine .expect trivial ⟨[.rightParen], _, closing, .intro .absent .none .absent⟩ fun rest => ?_
  refine .optionalName nodeBehindName ?_
  intro nameTokens own rest isName
  refine (labels_prompt rest).bind (fun used found areLabels => ?_) ?_
  · exact ⟨[.rightParen], _, closing, .intro isName areLabels .absent⟩
  intro labelTokens rest found _ areLabels
  refine (properties_prompt rest).bind (fun used map areProperties => ?_) ?_
  · exact ⟨[.rightParen], _, closing, .intro isName areLabels areProperties⟩
  intro mapTokens rest map _ areProperties
  refine .expect trivial (.of_derived (.intro isName areLabels areProperties)) fun rest => ?_
  exact .stop (.intro isName areLabels areProperties) fun _ _ => rfl

/-! ## Relationships -/

/-- Behind a bar that no colon follows the reader `moreTypes` reads a name, and further types. -/
theorem moreTypes_pipe {tokens : List Token} (noColon : tokens.head? ≠ some .colon) :
    moreTypes (.pipe :: tokens) = name .relationshipType tokens >>= fun (type, rest) =>
      moreTypes rest >>= fun (more, rest) => .ok (type :: more, rest) := by
  rcases tokens with _ | ⟨token, rest⟩
  · rfl
  · have other : token ≠ .colon := fun same => noColon (congrArg some same)
    rw [moreTypes, name]
    · rcases token.name? with _ | type
      · rfl
      · rfl
    · intro same
      exact absurd same other
    · intro next behind same
      exact absurd same other

/-- Behind a bar and a colon the reader `moreTypes` reads a name, and further types. -/
theorem moreTypes_pipe_colon (tokens : List Token) :
    moreTypes (.pipe :: .colon :: tokens) =
      name .relationshipType tokens >>= fun (type, rest) =>
        moreTypes rest >>= fun (more, rest) => .ok (type :: more, rest) := by
  rcases tokens with _ | ⟨token, rest⟩
  · rfl
  · rw [moreTypes, name]
    rcases token.name? with _ | type
    · rfl
    · rfl

/-- Further types are read at once: `moreTypes` is `Prompt`, by induction on the number of
tokens. -/
theorem moreTypes_prompt (tokens : List Token) : Prompt Grammar.MoreTypes moreTypes tokens := by
  rcases tokens with _ | ⟨token, rest⟩
  · exact .stop .none (forall_alike_nil rfl)
  by_cases pipe : token = .pipe
  · subst pipe
    by_cases colon : rest.head? = some .colon
    · obtain ⟨behind, rfl⟩ := List.head?_eq_some_iff.mp colon
      refine .cons (.cons (.of_alike ?_ fun other _ => moreTypes_pipe_colon other))
      refine .name (fun token type named => .of_derived (.barColon named .none)) ?_
      intro token type behind split named
      exact (moreTypes_prompt behind).finish (fun _ _ => rfl)
        fun used found areTypes => .barColon named areTypes
    · refine .cons (.of_alike ?_ fun other alike => moreTypes_pipe (alike ▸ colon))
      refine .name (fun token type named => .of_derived (.bar named .none)) ?_
      intro token type behind split named
      exact (moreTypes_prompt behind).finish (fun _ _ => rfl)
        fun used found areTypes => .bar named areTypes
  · refine .stop .none (forall_alike_cons fun other => ?_)
    exact moreTypes_of_derived .none fun same => pipe (Option.some.inj same)
termination_by tokens.length
decreasing_by
  all_goals
    subst_vars
    simp only [List.length_cons]
    omega

/-- Types that may be missing are read at once: `types` is `Prompt`. -/
theorem types_prompt (tokens : List Token) : Prompt Grammar.Types types tokens := by
  rcases tokens with _ | ⟨token, rest⟩
  · exact .stop .none (forall_alike_nil rfl)
  by_cases colon : token = .colon
  · subst colon
    refine .cons ?_
    refine .name (fun token type named => .of_derived (.some named .none)) ?_
    intro token type behind _ named
    exact (moreTypes_prompt behind).finish (fun _ _ => rfl)
      fun used found areTypes => .some named areTypes
  · refine .stop .none (forall_alike_cons fun other => ?_)
    cases token
    case colon => exact absurd rfl colon
    all_goals rfl

/-- The details of a relationship from behind its name, or behind where one would be: what `details`
does after `optionalName`. -/
def detailsBehindName (own : Option String) (tokens : List Token) :
    Reading ((Direction → Relationship) × List Token) :=
  types tokens >>= fun (types, rest) => properties rest >>= fun (map, rest) =>
    expect .rightBracket rest >>= fun rest => .ok (Relationship.mk own types map, rest)

/-- The details of a relationship are read at once: `details` is `Prompt`. -/
theorem details_prompt (tokens : List Token) : Prompt Grammar.Details details tokens := by
  have closing : ∀ token ∈ [Token.rightBracket], token.IsScanned :=
    List.forall_mem_singleton.mpr trivial
  rcases tokens with _ | ⟨token, rest⟩
  · exact .stop .absent (forall_alike_nil rfl)
  by_cases bracket : token = .leftBracket
  · subst bracket
    refine .cons ?_
    refine .optionalName detailsBehindName ?_
    intro nameTokens own rest isName
    refine (types_prompt rest).bind (fun used found areTypes => ?_) ?_
    · exact ⟨[.rightBracket], _, closing, .present isName areTypes .absent⟩
    intro typeTokens rest found _ areTypes
    refine (properties_prompt rest).bind (fun used map areProperties => ?_) ?_
    · exact ⟨[.rightBracket], _, closing, .present isName areTypes areProperties⟩
    intro mapTokens rest map _ areProperties
    refine .expect trivial (.of_derived (.present isName areTypes areProperties)) fun rest => ?_
    exact .stop (.present isName areTypes areProperties) fun _ _ => rfl
  · refine .stop .absent (forall_alike_cons fun other => ?_)
    exact details_of_derived .absent fun same => bracket (Option.some.inj same)

/-- A relationship is read promptly from the mark `first` on, with which a line at the end goes, if
it is for an arrow at the end. -/
theorem relationship_cons_prompt {first : Token} {incoming : Bool} {direction : Direction}
    (marks : Grammar.Marks first .dash direction)
    (opens : ∀ tokens, relationship (first :: tokens) =
      relationshipTail (first :: tokens) incoming tokens)
    (closes : ∀ since rest, closing since incoming (.dash :: rest) = .ok (direction, rest))
    (arrow : ∀ used behind found, Grammar.Details used found →
      (∀ other, relationship (first :: used ++ .rightArrow :: other) =
        closing (first :: used ++ .rightArrow :: other) incoming (.rightArrow :: other) >>=
          fun (direction, rest) => .ok (found direction, rest)) →
      Prompt Grammar.Relationship relationship (first :: used ++ .rightArrow :: behind))
    (tokens : List Token) : Prompt Grammar.Relationship relationship (first :: tokens) := by
  have line : ∀ token ∈ [Token.dash], token.IsScanned := List.forall_mem_singleton.mpr trivial
  rcases details_prompt tokens with @⟨used, rest, found, rfl, areDetails, reads⟩ |
    @⟨used, rest, rfl, ⟨more, found, scanned, areDetails⟩, rejects⟩
  · have read : ∀ other, other.head? = rest.head? → relationship (first :: used ++ other) =
        closing (first :: used ++ other) incoming other >>=
          fun (direction, rest) => .ok (found direction, rest) := by
      intro other alike
      rw [List.cons_append, opens, relationshipTail, reads other alike]
      rfl
    have unclosed (rejects : ∀ other, other.head? = rest.head? →
        ∀ since, closing since incoming other = reject .expectedClosing other) :
        Prompt Grammar.Relationship relationship (first :: (used ++ rest)) := by
      refine .blames (List.cons_append ..).symm ⟨[.dash], _, line, .intro marks areDetails⟩ ?_
      intro other alike
      have atToken : (PatternFault.expectedClosing other.head?).IsAtToken := trivial
      refine ⟨_, ?_, .next atToken⟩
      rw [read other alike, rejects other alike]
      rfl
    rcases rest with _ | ⟨last, behind⟩
    · exact unclosed (forall_alike_nil fun _ => rfl)
    cases last
    case dash =>
      refine .finds (List.append_cons (first :: used) .dash behind) (.intro marks areDetails) ?_
      intro other _
      rw [← List.append_cons, read (.dash :: other) rfl, closes]
      rfl
    case rightArrow => exact arrow used behind found areDetails fun other => read _ rfl
    all_goals exact unclosed (forall_alike_cons fun _ _ => rfl)
  · have whole : Grammar.Relationship (first :: used ++ (more ++ [.dash])) (found direction) := by
      rw [← List.append_assoc]
      exact .intro marks areDetails
    refine .blames (List.cons_append ..).symm
      ⟨more ++ [.dash], _, List.forall_mem_append.mpr ⟨scanned, line⟩, whole⟩ ?_
    intro other alike
    obtain ⟨rejection, rejected, blames⟩ := rejects other alike
    refine ⟨rejection, ?_, blames.behind [first]⟩
    rw [List.cons_append, opens, relationshipTail, rejected]
    rfl

/-- A relationship is read at once: `relationship` is `Prompt`, for either of the two marks that it
may start with. -/
theorem relationship_prompt (tokens : List Token) :
    Prompt Grammar.Relationship relationship tokens := by
  have line : ∀ token ∈ [Token.dash, .dash], token.IsScanned := by simp [Token.IsScanned]
  have nothing : Completable Grammar.Relationship [] :=
    ⟨[.dash, .dash], _, line, .intro .undirected .absent⟩
  rcases tokens with _ | ⟨token, rest⟩
  · exact .fail (.expectedToken .dash) (fun _ => trivial) nothing (forall_alike_nil rfl)
  cases token
  case dash =>
    refine relationship_cons_prompt .undirected (fun _ => rfl) (fun _ _ => rfl) ?_ rest
    intro used behind found areDetails read
    refine .finds (List.append_cons _ _ behind) (.intro .outgoing areDetails) fun other _ => ?_
    rw [← List.append_cons, read]
    rfl
  case leftArrow =>
    refine relationship_cons_prompt .incoming (fun _ => rfl) (fun _ _ => rfl) ?_ rest
    intro used behind found areDetails read
    have line : ∀ token ∈ [Token.dash], token.IsScanned := List.forall_mem_singleton.mpr trivial
    refine .blames rfl ⟨[.dash], _, line, .intro .incoming areDetails⟩
      (forall_alike_cons fun other => ?_)
    exact ⟨_, read other, .arrows (List.nil_append _).symm areDetails rfl⟩
  all_goals
    exact .fail (.expectedToken .dash) (fun _ => trivial) nothing (forall_alike_cons fun _ => rfl)

/-! ## Paths and patterns -/

/-- The reader `hops` reads a relationship and a node if a step starts, `startsHop`. -/
theorem hops_eq {tokens : List Token} (starts : startsHop tokens = true) :
    hops tokens = relationship tokens >>= fun (relationship, rest) =>
      node rest >>= fun (node, rest) =>
        hops rest >>= fun (more, rest) => .ok (⟨relationship, node⟩ :: more, rest) := by
  rw [hops, if_pos starts, hop]
  rcases relationship tokens with failure | ⟨relation, afterRelation⟩
  · rfl
  simp only [bind, Except.bind]
  rcases node afterRelation with failure | ⟨target, afterTarget⟩
  · rfl
  simp only [pure, Except.pure]
  rcases hops afterTarget with failure | ⟨more, behind⟩
  · rfl
  · rfl

/-- Whether a step starts, `startsHop`, is seen from the first token. -/
theorem startsHop_of_alike {tokens other : List Token} (alike : other.head? = tokens.head?) :
    startsHop other = startsHop tokens := by
  rcases tokens with _ | ⟨token, rest⟩
  · rw [List.head?_eq_none_iff.mp alike]
  · obtain ⟨behind, rfl⟩ := List.head?_eq_some_iff.mp alike
    cases token <;> rfl

/-- The steps of a path are read at once: `hops` is `Prompt`, by induction on the number of
tokens. -/
theorem hops_prompt (tokens : List Token) : Prompt Grammar.Hops hops tokens := by
  rcases starts : startsHop tokens
  · refine .stop .none fun other alike => ?_
    exact hops_of_derived .none ((startsHop_of_alike alike).trans starts)
  · have target : ∀ token ∈ [Token.leftParen, .rightParen], token.IsScanned := by
      simp [Token.IsScanned]
    refine .of_alike ?_ fun other alike => hops_eq ((startsHop_of_alike alike).trans starts)
    refine (relationship_prompt tokens).bind (fun used found isRelationship => ?_) ?_
    · exact ⟨_, _, target, .more isRelationship (.intro .absent .none .absent) .none⟩
    intro used rest found read isRelationship
    refine (node_prompt rest).bind (fun others target isNode => ?_) ?_
    · exact ⟨[], _, List.forall_mem_nil _, .more isRelationship isNode .none⟩
    intro others behind target readNode isNode
    have shorter := length_of_relationship read
    have shortest := length_of_node readNode
    exact (hops_prompt behind).finish (fun _ _ => rfl)
      fun more steps areHops => .more isRelationship isNode areHops
termination_by tokens.length

/-- An element is read at once: `element` is `Prompt`. -/
theorem element_prompt (tokens : List Token) : Prompt Grammar.Element element tokens := by
  unfold element
  refine (node_prompt tokens).bind (fun used found isNode => .of_derived (.node isNode)) ?_
  intro used rest start _ isNode
  exact (hops_prompt rest).finish (fun _ _ => rfl)
    fun others steps areHops => isElement_asElement isNode areHops

/-- The reader `pattern` reads elements, behind which there must not be tokens left. -/
theorem pattern_then_nothing (tokens : List Token) :
    (pattern tokens >>= fun found => .ok (found, ([] : List Token))) =
      commaSeparated element length_of_element tokens >>= fun (elements, rest) =>
        if rest.isEmpty then .ok (⟨elements⟩, []) else reject .trailing rest := by
  rw [pattern]
  rcases commaSeparated element length_of_element tokens with failure | ⟨elements, rest⟩
  · rfl
  · rcases rest with _ | ⟨token, behind⟩
    · rfl
    · rfl

/-- A pattern is read at once: `pattern` is `Prompt`, with no tokens left behind it. -/
theorem pattern_prompt (tokens : List Token) :
    Prompt Grammar.Pattern (fun tokens => pattern tokens >>= fun found => .ok (found, []))
      tokens := by
  refine .of_alike ?_ fun other _ => pattern_then_nothing other
  refine (commaSeparated_prompt element_prompt tokens).bind
    (fun used found areElements => .of_derived (.intro areElements)) ?_
  intro used rest elements _ areElements
  have whole : Grammar.Pattern (used ++ []) ⟨elements⟩ :=
    (List.append_nil used).symm ▸ .intro areElements
  rcases rest with _ | ⟨token, behind⟩
  · exact .stop whole (forall_alike_nil rfl)
  · exact .fail .trailing (fun _ => trivial) (.of_derived whole) (forall_alike_cons fun _ => rfl)

/-- Tokens that are no pattern are rejected at the first one that cannot go on: those before it are
`Completable` to a pattern, and no pattern starts with them and that token. -/
theorem pattern_eq_error {tokens : List Token} {rejection : Rejection}
    (read : pattern tokens = .error rejection) :
    ∃ used rest, tokens = used ++ rest ∧ rejection.Blames tokens rest ∧
      Completable Grammar.Pattern used ∧
      ∀ other, other.head? = rest.head? → ∀ found, pattern (used ++ other) ≠ .ok found := by
  rcases pattern_prompt tokens with @⟨used, rest, found, rfl, -, reads⟩ |
    @⟨used, rest, rfl, completable, rejects⟩
  · have whole := reads rest rfl
    rw [read] at whole
    cases whole
  · refine ⟨used, rest, rfl, ?_, completable, ?_⟩
    · obtain ⟨same, rejected, blames⟩ := rejects rest rfl
      rw [read] at rejected
      cases rejected
      exact blames
    · intro other alike found accepted
      obtain ⟨same, rejected, -⟩ := rejects other alike
      rw [accepted] at rejected
      cases rejected

end Reading

end CypherQuery
