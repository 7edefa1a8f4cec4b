import CypherQuery.Proofs.Number.Spelling
import CypherQuery.Proofs.Query.FreshName
import CypherQuery.Proofs.Render.Visitor
import CypherQuery.Proofs.Token.Splitting

/-! # Binding values under fresh names

Binding a value by `Parameters.allocate` only ever adds to the parameters, and the name that it is
bound under can be referred to without quotation. The structure `Binds` says what one binding does,
and `BindsAll` what a sequence of bindings does. The main statement, `allocating_binds_fresh_names`,
is that the search for a name ends within as many tries as there are names in use, and that no
binding overwrites another. -/

namespace CypherQuery

/-! ## Usable names -/

namespace Name

/-- What may stand inside an identifier, `isPart`, may start one, unless it is a digit. -/
theorem isStart_of_isPart {c : Char} (part : isPart c = true) (noDigit : c.isDigit = false) :
    isStart c = true := by
  rwa [isPart, Char.isAlphanum, noDigit, Bool.or_false] at part

/-- A character that may start an identifier and others that may stand inside make one,
`isIdentifier`. -/
theorem isIdentifier_ofList {c : Char} {rest : List Char} (start : isStart c = true)
    (parts : ∀ d ∈ rest, isPart d = true) : isIdentifier (String.ofList (c :: rest)) = true := by
  rw [isIdentifier, String.toList_ofList]
  exact (Bool.and_eq_true _ _).mpr ⟨start, List.all_eq_true.mpr parts⟩

end Name

namespace Parameters

/-- What takes the place of a character of a preferred name, `identifierPart`, may stand inside an
identifier. -/
theorem isPart_identifierPart (c : Char) : Name.isPart (identifierPart c) = true := by
  rw [identifierPart]
  split
  · next alphanumeric => rw [Name.isPart, alphanumeric, Bool.true_or]
  · rfl

/-- A `baseName` is an identifier, whatever name is preferred. -/
theorem isIdentifier_baseName (preferred : String) :
    Name.isIdentifier (baseName preferred) = true := by
  have parts : ∀ d ∈ preferred.toList.map identifierPart, Name.isPart d = true := by
    intro d member
    obtain ⟨c, -, rfl⟩ := List.mem_map.mp member
    exact isPart_identifierPart c
  have common : Name.isIdentifier "param" = true := by decide
  rw [baseName]
  generalize preferred.toList.map identifierPart = name at parts
  split
  · exact common
  · rcases name with _ | ⟨c, rest⟩
    · exact common
    · obtain ⟨first, others⟩ := List.forall_mem_cons.mp parts
      -- A digit at the start is the one thing that an underscore has to be put before.
      dsimp only
      split
      · exact Name.isIdentifier_ofList (by decide) parts
      · next noDigit =>
          exact Name.isIdentifier_ofList
            (Name.isStart_of_isPart first (Bool.eq_false_iff.mpr noDigit)) others

/-- A number behind an identifier makes another one: every `candidate` of an identifier is one. -/
theorem isIdentifier_candidate {base : String} (identifier : Name.isIdentifier base = true)
    (number : Nat) : Name.isIdentifier (candidate base number) = true := by
  rcases number with _ | number
  · exact identifier
  · obtain ⟨c, text, same, start, parts⟩ := Scan.toList_of_isIdentifier identifier
    rw [candidate, same]
    refine Name.isIdentifier_ofList start ?_
    refine List.forall_mem_append.mpr ⟨parts, List.forall_mem_cons.mpr ⟨rfl, ?_⟩⟩
    exact fun d member => Scan.isPart_of_isDigit (isDigit_of_mem_digits d member)

end Parameters

/-- A parameter that is named by an identifier is written without quotation, whatever the
`config`. -/
theorem Renderer.renderExpression_parameter {name : String}
    (identifier : Name.isIdentifier name = true) (config : RenderConfig) :
    renderExpression ⟨config⟩ (.parameter name) = .ok ("$" ++ name) := by
  have named : ¬name.isEmpty = true := by
    intro empty
    rw [String.isEmpty_iff.mp empty, Name.isIdentifier_empty] at identifier
    cases identifier
  rw [renderExpression_eq_print, Print.expression, parameterText, if_neg named, if_pos identifier]
  refine congrArg Except.ok (String.toList_injective ?_)
  rw [String.toList_ofList, String.toList_append]
  rfl

/-- A reference to a parameter that is named by an identifier is one token, `parameter`. -/
theorem scan_parameter {name : String} (identifier : Name.isIdentifier name = true) :
    scan ("$" ++ name) =
      ⟨[⟨.parameter name, ⟨0, byteLength ("$" ++ name).toList⟩⟩], []⟩ := by
  have text : ("$" ++ name).toList = '$' :: name.toList := String.toList_append
  have pieces := (Scan.splits_parameter identifier).pieces_eq trivial
  rw [scan, text, pieces, Scan.parameterPiece]
  simp [Piece.locate, Located.token?, Located.fault?, Piece.token?, Piece.isFault, Piece.text]

namespace Parameters

/-! ## One binding -/

/-- A value is bound under a fresh name made from a preferred one: what is known of `name` and of
the parameters `next` behind the binding. -/
structure Binds (parameters : Parameters) (preferred : String) (value : Value) (name : String)
    (next : Parameters) : Prop where
  /-- The name is the first candidate that is free, and there are at most as many before it as
  there are names in use. -/
  first : ∃ n ≤ parameters.size, name = candidate (baseName preferred) n ∧
    ∀ m < n, parameters.contains (candidate (baseName preferred) m) = true
  /-- Nothing was bound to the name. -/
  fresh : parameters.get? name = none
  /-- The value is bound to the name. -/
  bound : next.get? name = some value
  /-- What is bound to other names stays as it is. -/
  kept : ∀ other ≠ name, next.get? other = parameters.get? other
  /-- There is one name more. -/
  grown : next.size = parameters.size + 1
  /-- The name is an identifier. -/
  identifier : Name.isIdentifier name = true
  /-- References to the name are written without quotation. -/
  written : ∀ config, Renderer.renderExpression ⟨config⟩ (.parameter name) = .ok ("$" ++ name)
  /-- The text of a reference is one token. -/
  scanned : scan ("$" ++ name) =
    ⟨[⟨.parameter name, ⟨0, byteLength ("$" ++ name).toList⟩⟩], []⟩

/-- The `freshName` is a `candidate` that comes behind at most as many as there are names in use. -/
theorem exists_freshName_le (parameters : Parameters) (preferred : String) :
    ∃ n ≤ parameters.size, parameters.freshName preferred = candidate (baseName preferred) n ∧
      ∀ m < n, parameters.contains (candidate (baseName preferred) m) = true := by
  obtain ⟨n, same, -, earlier⟩ := parameters.freshName_spec preferred
  obtain ⟨k, within, free⟩ := parameters.exists_free (baseName preferred)
  refine ⟨n, ?_, same, earlier⟩
  by_contra beyond
  rw [earlier k (Nat.lt_of_le_of_lt within (Nat.lt_of_not_le beyond))] at free
  cases free

/-- A value that is given a fresh name by `allocate` is bound under it, and nothing else changes:
`Binds`. -/
theorem binds_allocate (parameters : Parameters) (preferred : String) (value : Value) :
    parameters.Binds preferred value (parameters.allocate preferred value).1
      (parameters.allocate preferred value).2 := by
  have first := parameters.exists_freshName_le preferred
  have fresh := parameters.get?_freshName preferred
  have identifier : Name.isIdentifier (parameters.freshName preferred) = true := by
    obtain ⟨n, -, same, -⟩ := first
    rw [same]
    exact isIdentifier_candidate (isIdentifier_baseName preferred) n
  exact
    { first, fresh, identifier
      bound := Dictionary.get?_insert_self _ _ _
      kept := fun other apart => Dictionary.get?_insert_of_ne _ apart _
      grown := Dictionary.size_insert_of_get?_eq_none _ fresh _
      written := Renderer.renderExpression_parameter identifier
      scanned := scan_parameter identifier }

/-! ## A sequence of bindings -/

/-- The names under which values are bound by `allocate` one after the other, and the parameters
then. -/
def allocateAll (parameters : Parameters) : List (String × Value) → List String × Parameters
  | [] => ([], parameters)
  | (preferred, value) :: rest =>
      let (name, next) := parameters.allocate preferred value
      let (names, last) := next.allocateAll rest
      (name :: names, last)

/-- Values are bound under different fresh names, and nothing else changes: what is known of `names`
and of the parameters `last` behind all bindings. -/
structure BindsAll (parameters : Parameters) (requests : List (String × Value))
    (names : List String) (last : Parameters) : Prop where
  /-- Each value is bound to the name in its place. -/
  bound : List.Forall₂ (fun name request => last.get? name = some request.2) names requests
  /-- No name comes twice. -/
  distinct : names.Nodup
  /-- Nothing was bound to any of the names. -/
  fresh : ∀ name ∈ names, parameters.get? name = none
  /-- What is bound to other names stays as it is. -/
  kept : ∀ other ∉ names, last.get? other = parameters.get? other
  /-- There is one name more for each value. -/
  grown : last.size = parameters.size + requests.length
  /-- The names are identifiers. -/
  identifiers : ∀ name ∈ names, Name.isIdentifier name = true

/-- A binding in front of others keeps its name to itself: `Binds`, then `BindsAll`, is
`BindsAll`. -/
theorem Binds.cons {parameters next last : Parameters} {preferred name : String} {value : Value}
    {requests : List (String × Value)} {names : List String}
    (one : parameters.Binds preferred value name next)
    (others : next.BindsAll requests names last) :
    parameters.BindsAll ((preferred, value) :: requests) (name :: names) last := by
  -- The later names were free when the first one was in use.
  have apart : name ∉ names := by
    intro again
    have free := others.fresh name again
    rw [one.bound] at free
    cases free
  exact
    { bound := .cons ((others.kept name apart).trans one.bound) others.bound
      distinct := List.nodup_cons.mpr ⟨apart, others.distinct⟩
      fresh := by
        refine List.forall_mem_cons.mpr ⟨one.fresh, fun other member => ?_⟩
        have different : other ≠ name := fun same => apart (same ▸ member)
        exact (one.kept other different).symm.trans (others.fresh other member)
      kept := by
        intro other outside
        obtain ⟨different, later⟩ := not_or.mp (mt List.mem_cons.mpr outside)
        exact (others.kept other later).trans (one.kept other different)
      grown := by
        rw [others.grown, one.grown, List.length_cons, Nat.add_assoc, Nat.add_comm 1]
      identifiers := List.forall_mem_cons.mpr ⟨one.identifier, others.identifiers⟩ }

/-- A sequence of bindings binds each value under a name of its own: `allocateAll` is `BindsAll`, by
induction on the requests. -/
theorem bindsAll_allocateAll (parameters : Parameters) (requests : List (String × Value)) :
    parameters.BindsAll requests (parameters.allocateAll requests).1
      (parameters.allocateAll requests).2 := by
  induction requests generalizing parameters with
  | nil =>
      exact ⟨.nil, List.nodup_nil, List.forall_mem_nil _, fun _ _ => rfl, rfl,
        List.forall_mem_nil _⟩
  | cons request rest ih =>
      obtain ⟨preferred, value⟩ := request
      exact (parameters.binds_allocate preferred value).cons (ih _)

/-- Whatever is bound already and whatever name is preferred, `allocate` binds a value under the
first free candidate, which is found within as many tries as there are names in use and can be
referred to without quotation; no other binding changes (`Binds`). Over any sequence of such
bindings, the names are all different and each value stays bound to its own (`BindsAll`). -/
theorem allocating_binds_fresh_names (parameters : Parameters) :
    (∀ preferred value, parameters.Binds preferred value
      (parameters.allocate preferred value).1 (parameters.allocate preferred value).2) ∧
    ∀ requests, parameters.BindsAll requests (parameters.allocateAll requests).1
      (parameters.allocateAll requests).2 :=
  ⟨parameters.binds_allocate, parameters.bindsAll_allocateAll⟩

/-- A name with a number behind it may be preferred as well as others. -/
example : (allocateAll .empty [("a", .null), ("a", .null), ("a_1", .null), ("2 b", .null)]).1
    = ["a", "a_1", "a_1_1", "_2_b"] := by
  decide

end Parameters

end CypherQuery
